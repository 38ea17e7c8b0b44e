import ScriptCompiler.IR.Module
import ScriptCompiler.Lowering.Fault
import ScriptCompiler.Scope.Table
import ScriptCompiler.Syntax.Tree

/-!
# The state of lowering

Lowering adds instructions to one block of one function at a time.  The state holds that function,
the scopes seen so far and the constants and declarations of the module.  The first violation ends
it.
-/

namespace ScriptCompiler.Lowering

open IR

/-- What lowering has made so far. -/
structure State where
  /-- The scopes and their symbols. -/
  table : ScopeTable
  /-- The string constants of the module. -/
  strings : List Bytes := []
  /-- The external functions of the module. -/
  externals : List External := []
  /-- The stack slots of variables and parameters, by context and place in it. -/
  slots : List ((Context × Nat) × Place) := []
  /-- The function being lowered. -/
  function : Function
  /-- The block that takes the next instruction. -/
  current : BlockName

/-- A step of lowering. -/
abbrev Build := StateT State (Except Diagnostic)

/-- End lowering at something that was kept for later and is not there. -/
def lost {α : Type} (what : Bytes) : Build α := do
  let state ← get
  throw
    { category := .invalidIndex, details := what, position := {},
      origin := ⟨state.table.stem, []⟩ }

/-- The scopes, for a step in one of their contexts. -/
def tableAt (context : Context) : Build ScopeTable := do
  let state ← get
  if state.table.records.length ≤ context then
    lost ("symtab: invalid context " ++ Bytes.ofNat context)
  return state.table

/-- End lowering with a violation at a position, found in a context. -/
def refuse {α : Type} (context : Context) (position : Position) (fault : LoweringFault) :
    Build α := do
  let table ← tableAt context
  throw
    { category := fault.category
      details := fault.message
      position
      origin := table.origin context }

/-- Run a step on the scope table, in one of its contexts. -/
def onTable {α : Type} (context : Context)
    (step : ScopeTable → Except Diagnostic (α × ScopeTable)) : Build α := do
  let table ← tableAt context
  match step table with
  | .ok (answer, table) =>
      modify fun state => { state with table }
      return answer
  | .error diagnostic => throw diagnostic

/-- Open a scope inside a context. -/
def openScope (context : Context) (kind : ScopeKind) (label : Bytes) : Build Context :=
  onTable context fun table => .ok (table.child context kind label)

/-- Add an instruction to the current block. -/
def emit (instr : Instr) : Build Unit :=
  modify fun state => { state with function := state.function.append state.current.id instr }

/-- The number of a new value. -/
def freshId : Build Nat :=
  modifyGet fun state =>
    let (id, function) := state.function.newValue
    (id, { state with function })

/-- A new result. -/
def freshTemp (type : BasicType) : Build Temp := do
  return ⟨← freshId, type⟩

/-- A constant of the program; it takes a number of its own. -/
def newConstant (constant : Constant) : Build Value := do
  let _ ← freshId
  return .constant constant

/-- A string constant of the module. -/
def newString (content : Bytes) : Build Value :=
  modifyGet fun state =>
    let (index, strings) := internString state.strings content
    (.string index, { state with strings })

/-- A new block at the end of the function. -/
def newBlock (label : Bytes) : Build BlockName :=
  modifyGet fun state =>
    let (name, function) := state.function.newBlock label
    (name, { state with function })

/-- Go on in another block. -/
def enter (name : BlockName) : Build Unit := modify fun state => { state with current := name }

/-- Whether the current block takes further instructions. -/
def isOpen : Build Bool := do
  let state ← get
  return state.function.isOpen state.current.id

/-- Record that control may pass from the current block to another one. -/
def connect (target : BlockName) : Build Unit :=
  modify fun state => { state with function := state.function.addEdge state.current target }

/-- End the current block with a jump. -/
def jump (target : BlockName) : Build Unit := do
  emit (.jump target)
  connect target

/-- End the current block with a jump unless it has ended already. -/
def jumpIfOpen (target : BlockName) : Build Unit := do
  if ← isOpen then jump target

/-- End the current block with a branch. -/
def branch (condition : Value) (ifTrue ifFalse : BlockName) : Build Unit := do
  emit (.branch condition ifTrue ifFalse)
  connect ifTrue
  connect ifFalse

/-- A new stack slot. -/
def newSlot (type : BasicType) (name : Bytes) : Build Place := do
  let slot : Place := ⟨← freshId, name, type⟩
  emit (.alloca slot)
  return slot

/-- Keep the slot of a symbol. -/
def bindSlot (symbol : Symbol) (slot : Place) : Build Unit :=
  modify fun state =>
    { state with slots := ((symbol.context, symbol.index), slot) :: state.slots }

/-- Make a slot for a symbol, with a value in it. -/
def holdValue (symbol : Symbol) (type : BasicType) (value : Value) : Build Unit := do
  let slot ← newSlot type symbol.name
  emit (.store (.slot slot) value)
  bindSlot symbol slot

/-- The slot of a symbol. -/
def slotOf (symbol : Symbol) : Build Place := do
  let state ← get
  match state.slots.find? fun entry => entry.1 == (symbol.context, symbol.index) with
  | some (_, slot) => return slot
  | none => lost ("no slot for '" ++ symbol.name ++ "'")

/-- The zero of a type. -/
def zeroValue : BasicType → Build Value
  | .float => newConstant (.float 0)
  | .bool => newConstant (.bool false)
  | .string => newString []
  | _ => newConstant (.int 0)

/-- A place that nothing is kept in: what a call without a result yields. -/
def noValue : Build Value := do
  return .temp (← freshTemp .void)

/-- The type with the name that an identifier spells. -/
def resultType (context : Context) (identifier : Identifier) : Build BasicType :=
  match BasicType.ofName? identifier.name with
  | some type => return type
  | none => refuse context identifier.first (.unknownType identifier.name)

/-- The type of a variable or parameter, which holds a value. -/
def valueType (context : Context) (identifier : Identifier) : Build BasicType := do
  let type ← resultType context identifier
  if type == .void then refuse context identifier.first .voidValue
  return type

end ScriptCompiler.Lowering
