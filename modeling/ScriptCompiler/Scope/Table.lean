import ScriptCompiler.Diagnostic
import ScriptCompiler.Scope.Symbol

/-!
# The scope table

The scopes of a program are records in a list, and a context is the place of a record in that list.
The root is context zero; every other record names its parent, which stands before it, so that the
chain from any context ends at the root.  A name resolves to its nearest declaration on the chain.
-/

namespace ScriptCompiler

/-- What introduces a scope. -/
inductive ScopeKind where
  /-- The program. -/
  | module
  /-- The statements at top level. -/
  | topLevel
  /-- A function. -/
  | function
  /-- A block. -/
  | block
  /-- A loop. -/
  | loop
  /-- A kind that has a number and no name. -/
  | unlisted (code : Int)
  deriving DecidableEq, Repr

namespace ScopeKind

/-- The named kinds in the order of their numbers. -/
def all : List ScopeKind := [.module, .topLevel, .function, .block, .loop]

/-- The kind with a number. -/
def ofCode (code : Int) : ScopeKind :=
  if code < 0 then .unlisted code else (all[code.toNat]?).getD (.unlisted code)

/-- The name of a kind. -/
def name : ScopeKind → Bytes
  | .module => "module"
  | .topLevel => "toplevel"
  | .function => "function"
  | .block => "block"
  | .loop => "loop"
  | .unlisted _ => "unknown"

end ScopeKind

/-- The place of a scope in its table. -/
abbrev Context := Nat

/-- One scope. -/
structure ScopeRecord where
  /-- The enclosing context; the root has none. -/
  parent : Option Context
  /-- The label shown in diagnostics. -/
  label : Bytes
  /-- What introduced the scope. -/
  kind : ScopeKind
  /-- The number of enclosing scopes. -/
  depth : Nat
  /-- The declared symbols in order. -/
  symbols : List Symbol := []
  deriving Repr

namespace ScopeRecord

/-- The symbol that the scope itself binds to a name. -/
def find? (record : ScopeRecord) (name : Bytes) : Option Symbol :=
  record.symbols.find? fun symbol => symbol.name == name

/-- The variables of the scope that nothing was resolved to, by their place in the source. -/
def unused (record : ScopeRecord) : List Symbol :=
  (record.symbols.filter fun symbol => !symbol.used && symbol.kind == .variable).mergeSort
    fun left right => !right.position.before left.position

/-- A line for the scope and, one level deeper, a line for each of its symbols. -/
def outline (record : ScopeRecord) : Bytes :=
  let indent := Bytes.filled (2 * record.depth) 0x20
  let symbolLine : Symbol → Bytes := fun symbol => indent ++ "  " ++ symbol.text ++ "\n"
  indent ++ record.label ++ " (" ++ record.kind.name ++ ")\n" ++ record.symbols.flatMap symbolLine

end ScopeRecord

/-- The scopes of one source file. -/
structure ScopeTable where
  /-- The name of the file. -/
  file : Bytes
  /-- The stem of the file. -/
  stem : Bytes
  /-- The scopes in the order of their creation. -/
  records : List ScopeRecord
  deriving Repr

namespace ScopeTable

/-- The label of the root scope. -/
def rootLabel : Bytes := "<main>"

/-- The table of a file, with nothing declared. -/
def ofFile (file : SourceFile) : ScopeTable :=
  ⟨file.name, file.stem, [{ parent := none, label := rootLabel, kind := .module, depth := 0 }]⟩

/-- The root context. -/
def root : Context := 0

/-- The scope at a context. -/
def record? (table : ScopeTable) (context : Context) : Option ScopeRecord := table.records[context]?

/-- The label of a context. -/
def label (table : ScopeTable) (context : Context) : Bytes :=
  ((table.record? context).map ScopeRecord.label).getD []

/-- The file and scope that a diagnostic raised in a context is attributed to. -/
def origin (table : ScopeTable) (context : Context) : Origin := ⟨table.stem, table.label context⟩

/-- A new scope inside a context. -/
def child (table : ScopeTable) (parent : Context) (kind : ScopeKind) (label : Bytes) :
    Context × ScopeTable :=
  let depth := ((table.record? parent).map ScopeRecord.depth).getD 0 + 1
  (table.records.length,
    { table with records := table.records ++ [{ parent := some parent, label, kind, depth }] })

/-- Replace the scope at a context. -/
def update (table : ScopeTable) (context : Context) (change : ScopeRecord → ScopeRecord) :
    ScopeTable :=
  { table with records := table.records.modify context change }

/-- The symbol bound to a name in a context itself. -/
def local? (table : ScopeTable) (context : Context) (name : Bytes) : Option Symbol :=
  table.record? context >>= fun record => record.find? name

/-- Bind a symbol's name in a context.  A name that the context binds already is a diagnostic at the
new symbol; the names of enclosing contexts are hidden. -/
def declare (table : ScopeTable) (context : Context) (symbol : Symbol) :
    Except Diagnostic (Symbol × ScopeTable) :=
  match table.local? context symbol.name with
  | some existing =>
      .error
        { category := .duplicateName
          details := "'" ++ symbol.name ++ "' is already declared at line " ++
            Bytes.ofInt existing.position.line ++ ", pos " ++ Bytes.ofInt existing.position.column
          position := symbol.position
          origin := table.origin context }
  | none =>
      let index := ((table.record? context).map fun record => record.symbols.length).getD 0
      let owned := { symbol with context, index }
      .ok (owned, table.update context fun record =>
        { record with symbols := record.symbols ++ [owned] })

/-- The contexts from `context` towards the root, at most `steps` of them. -/
def chainWithin (table : ScopeTable) : Nat → Context → List Context
  | 0, _ => []
  | steps + 1, context =>
      match table.record? context with
      | none => []
      | some record =>
          context ::
            match record.parent with
            | some parent => chainWithin table steps parent
            | none => []

/-- The contexts from `context` to the root. -/
def chain (table : ScopeTable) (context : Context) : List Context :=
  table.chainWithin (context + 1) context

/-- The nearest context of a kind. -/
def enclosing? (table : ScopeTable) (context : Context) (kind : ScopeKind) : Option Context :=
  (table.chain context).find? fun place =>
    ((table.record? place).map ScopeRecord.kind) == some kind

/-- The nearest symbol bound to a name. -/
def find? (table : ScopeTable) (context : Context) (name : Bytes) : Option Symbol :=
  (table.chain context).findSome? fun place => table.local? place name

/-- Mark the symbol that a context binds to a name as used. -/
def markUsed (table : ScopeTable) (context : Context) (name : Bytes) : ScopeTable :=
  table.update context fun record =>
    { record with symbols := record.symbols.map fun symbol =>
        if symbol.name == name then { symbol with used := true } else symbol }

/-- Resolve a name used at a position: its nearest symbol, marked as used.  A name without a
declaration is a diagnostic at its use. -/
def resolve (table : ScopeTable) (context : Context) (name : Bytes) (use : Position) :
    Except Diagnostic (Symbol × ScopeTable) :=
  match table.find? context name with
  | some symbol => .ok ({ symbol with used := true }, table.markUsed symbol.context name)
  | none =>
      .error
        { category := .noSuchVariable
          details := "'" ++ name ++ "' is not defined"
          position := use
          origin := table.origin context }

/-- The contexts whose parent is a context, in the order of their creation. -/
def children (table : ScopeTable) (context : Context) : List Context :=
  (List.range table.records.length).filter fun place =>
    ((table.record? place).map ScopeRecord.parent) == some (some context)

/-- The lines of the tree below a context, at most `height` levels of it. -/
def outlineWithin (table : ScopeTable) : Nat → Context → Bytes
  | 0, _ => []
  | height + 1, context =>
      match table.record? context with
      | none => []
      | some record =>
          record.outline ++ (table.children context).flatMap (outlineWithin table height)

/-- The tree of scopes with their symbols, one a line, indented by depth. -/
def outline (table : ScopeTable) : Bytes := table.outlineWithin table.records.length root

/-- The variables of all scopes that nothing was resolved to, scope by scope. -/
def unused (table : ScopeTable) : List Symbol := table.records.flatMap ScopeRecord.unused

end ScopeTable

end ScriptCompiler
