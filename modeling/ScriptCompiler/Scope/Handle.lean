import ScriptCompiler.Scope.Table

/-!
# Scopes by number

Requests that name a context by an arbitrary number.  A number without a scope is refused with a
reason, and a walk along the chain from such a number breaks off.
-/

namespace ScriptCompiler

/-- Why a request about scopes has no answer. -/
inductive ScopeFault where
  /-- The request is well formed and the answer is a diagnostic. -/
  | reported (diagnostic : Diagnostic)
  /-- There is no context with this number. -/
  | noContext (number : Int)
  /-- A walk started outside the table. -/
  | strayed
  deriving Repr

namespace ScopeFault

/-- The text of the fault, if it has one of its own. -/
def message? : ScopeFault → Option Bytes
  | .reported diagnostic => some diagnostic.message
  | .noContext number => some ("symtab: invalid context " ++ Bytes.ofInt number)
  | .strayed => none

end ScopeFault

namespace ScopeTable

/-- The context with a number. -/
def contextAt (table : ScopeTable) (number : Int) : Except ScopeFault Context :=
  if 0 ≤ number ∧ number < table.records.length then
    .ok number.toNat else .error (.noContext number)

/-- The scope with a number. -/
def recordAt (table : ScopeTable) (number : Int) : Except ScopeFault ScopeRecord :=
  match table.contextAt number with
  | .ok context =>
      match table.record? context with
      | some record => .ok record
      | none => .error (.noContext number)
  | .error fault => .error fault

/-- Where a walk towards the root starts: nowhere for the number before the root's. -/
def walkFrom (table : ScopeTable) (number : Int) : Except ScopeFault (Option Context) :=
  if number = -1 then .ok none
  else if 0 ≤ number ∧ number < table.records.length then .ok (some number.toNat)
  else .error .strayed

/-- A new scope inside the numbered one. -/
def childAt (table : ScopeTable) (number : Int) (kind : ScopeKind) (label : Bytes) :
    Except ScopeFault (Context × ScopeTable) :=
  (table.contextAt number).map fun context => table.child context kind label

/-- Declare a symbol in the numbered scope. -/
def declareAt (table : ScopeTable) (number : Int) (symbol : Symbol) :
    Except ScopeFault (Symbol × ScopeTable) :=
  table.contextAt number >>= fun context => (table.declare context symbol).mapError .reported

/-- Resolve a name from the numbered scope. -/
def resolveAt (table : ScopeTable) (number : Int) (name : Bytes) (use : Position) :
    Except ScopeFault (Symbol × ScopeTable) :=
  table.walkFrom number >>= fun start =>
    match start with
    | some context => (table.resolve context name use).mapError .reported
    | none => .error (.noContext number)

/-- The nearest scope of a kind from the numbered scope on. -/
def enclosingAt (table : ScopeTable) (number : Int) (kind : ScopeKind) :
    Except ScopeFault (Option Context) :=
  (table.walkFrom number).map fun start => start >>= fun context => table.enclosing? context kind

end ScopeTable

end ScriptCompiler
