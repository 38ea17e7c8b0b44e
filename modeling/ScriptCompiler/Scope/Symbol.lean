import ScriptCompiler.Source.Position
import ScriptCompiler.Ty

/-!
# Symbols

What a declaration binds to a name.
-/

namespace ScriptCompiler

/-- What a declared name stands for. -/
inductive SymbolKind where
  /-- A variable. -/
  | variable
  /-- A parameter of a function. -/
  | parameter
  /-- A function. -/
  | function
  /-- A kind that has a number and no name. -/
  | unlisted (code : Int)
  deriving DecidableEq, Repr

namespace SymbolKind

/-- The kind with a number. -/
def ofCode (code : Int) : SymbolKind :=
  if code = 0 then .variable else if code = 1 then .parameter else if code = 2 then .function
  else .unlisted code

/-- The name of a kind. -/
def name : SymbolKind → Bytes
  | .variable => "variable"
  | .parameter => "parameter"
  | .function => "function"
  | .unlisted _ => "unknown"

/-- Whether an assignment may target a name of this kind. -/
def isAssignable : SymbolKind → Bool
  | .variable | .parameter => true
  | _ => false

end SymbolKind

/-- A declared name. -/
structure Symbol where
  /-- The name. -/
  name : Bytes
  /-- What it stands for. -/
  kind : SymbolKind
  /-- Its type, if it has one. -/
  type : Option Ty
  /-- Where it is declared. -/
  position : Position
  /-- The context that owns it. -/
  context : Nat := 0
  /-- Its place among the declarations of its context. -/
  index : Nat := 0
  /-- Whether the name has been resolved to it. -/
  used : Bool := false
  deriving Repr

namespace Symbol

/-- Whether an assignment may target the symbol. -/
def isAssignable (symbol : Symbol) : Bool := symbol.kind.isAssignable

/-- The symbol on one line: kind, name, type and place. -/
def text (symbol : Symbol) : Bytes :=
  let type := ((symbol.type.map Ty.text)).getD "<untyped>"
  symbol.kind.name ++ " " ++ symbol.name ++ ": " ++ type ++ " at " ++ symbol.position.text

end Symbol

end ScriptCompiler
