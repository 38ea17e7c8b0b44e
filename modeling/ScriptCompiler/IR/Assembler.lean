import ScriptCompiler.IR.Module
import ScriptCompiler.Number.Numeral

/-!
# An assembler for functions

Functions can be written instruction by instruction.  A line is a list of words: first what to do,
then names for results, types and operands.  An operand is a mark, a colon and a content, such as
`i:5` for an integer or `v:x` for the value with the name `x`.
-/

namespace ScriptCompiler.IR

/-- What a line of assembly does. -/
inductive Mnemonic where
  /-- An operation on two values. -/
  | binary
  /-- An operation on one value. -/
  | unary
  /-- A copy of a value. -/
  | copy
  /-- A new slot. -/
  | alloca
  /-- The value in a slot. -/
  | load
  /-- A value put into a slot. -/
  | store
  /-- A call. -/
  | call
  /-- A jump, along an edge of the graph or not. -/
  | jump (edge : Bool)
  /-- A branch, along edges of the graph or not. -/
  | branch (edges : Bool)
  /-- A return. -/
  | ret
  /-- An edge of the graph, without an instruction. -/
  | edge
  /-- An edge of the graph that is taken away. -/
  | unedge
  deriving DecidableEq, Repr

/-- The words for lines. -/
def Mnemonic.words : List (Bytes × Mnemonic) :=
  [("bin", .binary), ("un", .unary), ("copy", .copy), ("alloca", .alloca), ("load", .load),
    ("store", .store), ("call", .call), ("jump", .jump true), ("jump!", .jump false),
    ("br", .branch true), ("br!", .branch false), ("ret", .ret), ("edge", .edge),
    ("unedge", .unedge)]

/-- A function being assembled. -/
structure Assembly where
  /-- The module around the function. -/
  module : Module
  /-- The function so far. -/
  function : Function
  /-- The values that have names, the newest first. -/
  names : List (Bytes × Value) := []

/-- A step of assembling. -/
abbrev Assemble := StateM Assembly

namespace Assemble

/-- Change the function. -/
def onFunction {α : Type} (change : Function → α × Function) : Assemble α :=
  modifyGet fun assembly =>
    let (value, function) := change assembly.function
    (value, { assembly with function })

/-- Give a value a name. -/
def bindName (name : Bytes) (value : Value) : Assemble Unit :=
  modify fun assembly => { assembly with names := (name, value) :: assembly.names }

/-- A new temporary with a name. -/
def newTemp (name : Bytes) (type : BasicType) : Assemble Temp := do
  let temp : Temp := ⟨← onFunction Function.newValue, type⟩
  bindName name (.temp temp)
  return temp

/-- A constant; each one takes a number as values do. -/
def constant (content : Constant) : Assemble Value := do
  let _ ← onFunction Function.newValue
  return .constant content

/-- The value with a name; an unknown name stands for an integer that nothing defines. -/
def namedValue (name : Bytes) : Assemble Value := do
  match (← get).names.lookup name with
  | some value => return value
  | none => return .temp (← newTemp name .int)

/-- The value of an operand. -/
def value (operand : Bytes) : Assemble Value := do
  let mark := operand.takeWhile (· != 0x3A)
  let content := operand.drop (mark.length + 1)
  let index := (Numeral.natural? content).getD 0
  if mark == Bytes.ofString "i" then constant (.int ((Numeral.integer? content).getD 0))
  else if mark == Bytes.ofString "f" then constant (.float ((Numeral.double? content).getD 0))
  else if mark == Bytes.ofString "b" then constant (.bool (content == Bytes.ofString "true"))
  else if mark == Bytes.ofString "nil" then constant .nothing
  else if mark == Bytes.ofString "p" then
    return ((← get).function.params[index]?.map Value.param).getD (.stray content)
  else if mark == Bytes.ofString "s" then return .string index
  else if mark == Bytes.ofString "g" then return .stray content
  else namedValue content

/-- The block with a label; an unknown label stands for a new block outside the function. -/
def block (label : Bytes) : Assemble BlockName := do
  match (← get).function.labelled? label with
  | some block => return block.name
  | none => onFunction fun function => function.outsideBlock label

/-- The function with a name. -/
def callee (name : Bytes) : Assemble Callee := do
  let module := (← get).module
  return ⟨if (module.external? name).isSome then .external
    else if (module.function? name).isSome then .defined else .unknown, name⟩

/-- The type with a name. -/
def type (name : Bytes) : BasicType := (BasicType.ofName? name).getD .invalid

/-- The operation on two values with a name or a number. -/
def binaryOpcode (word : Bytes) : BinaryOpcode :=
  (BinaryOpcode.ofName? word).getD (.ofCode ((Numeral.integer? word).getD (-1)))

/-- The operation on one value with a name or a number. -/
def unaryOpcode (word : Bytes) : UnaryOpcode :=
  (UnaryOpcode.ofName? word).getD (.ofCode ((Numeral.integer? word).getD (-1)))

/-- Append an instruction to a block. -/
def emit (here : BlockName) (instr : Instr) : Assemble Unit :=
  onFunction fun function => ((), function.append here.id instr)

/-- Add edges of the graph. -/
def edges (here : BlockName) (targets : List BlockName) : Assemble Unit :=
  onFunction fun function =>
    ((), targets.foldl (fun changed target => changed.addEdge here target) function)

/-- Assemble a line in a block, given as what to do and the words behind it; a word may be left out.
Operands are read from left to right, before the result gets its number.  A line that is no
instruction has no effect. -/
def instruct (here : BlockName) : Mnemonic → List (Option Bytes) → Assemble Unit
  | .binary, [some operation, some result, some kind, some left, some right] => do
      let first ← value left
      let second ← value right
      emit here (.binary (binaryOpcode operation) (← newTemp result (type kind)) first second)
  | .unary, [some operation, some result, some kind, some operand] => do
      let operated ← value operand
      emit here (.unary (unaryOpcode operation) (← newTemp result (type kind)) operated)
  | .copy, [some result, some kind, some operand] => do
      let copied ← value operand
      emit here (.copy (← newTemp result (type kind)) copied)
  | .alloca, [some result, some kind] => do
      let slot : Place := ⟨← onFunction Function.newValue, result, type kind⟩
      bindName result (.slot slot)
      emit here (.alloca slot)
  | .load, [some result, some kind, some address] => do
      let place ← value address
      emit here (.load (← newTemp result (type kind)) place)
  | .store, [some address, some operand] => do
      let place ← value address
      emit here (.store place (← value operand))
  | .call, some name :: result :: kind :: arguments => do
      let called ← callee name
      let values ← (arguments.filterMap id).mapM value
      let temp ← result.mapM fun name => newTemp name (type (kind.getD []))
      emit here (.call temp called values)
  | .jump along, [some label] => do
      let target ← block label
      emit here (.jump target)
      if along then edges here [target]
  | .branch along, [some condition, some ifTrue, some ifFalse] => do
      let tested ← value condition
      let first ← block ifTrue
      let second ← block ifFalse
      emit here (.branch tested first second)
      if along then edges here [first, second]
  | .ret, [] => emit here (.ret none)
  | .ret, [some operand] => do emit here (.ret (some (← value operand)))
  | .edge, [some label] => do edges here [← block label]
  | .unedge, [some label] => do
      let target ← block label
      onFunction fun function => ((), function.removeEdge here target)
  | _, _ => pure ()

/-- Assemble a line of words in a block. -/
def line (here : BlockName) : List (Option Bytes) → Assemble Unit
  | some word :: words =>
      match Mnemonic.words.lookup word with
      | some mnemonic => instruct here mnemonic words
      | none => pure ()
  | _ => pure ()

end Assemble

/-- A function with further blocks and the lines that `code` gives for each label, in the order of
the blocks. -/
def Function.assembled (function : Function) (module : Module) (labels : List Bytes)
    (code : Bytes → List (List (Option Bytes))) : Function :=
  let empty := labels.foldl (fun changed label => (changed.newBlock label).2) function
  let work : Assemble Unit := empty.blocks.forM fun block =>
    (code block.name.label).forM (Assemble.line block.name)
  (work.run { module, function := empty }).2.function

end ScriptCompiler.IR
