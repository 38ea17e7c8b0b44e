import ScriptCompiler.IR.Opcode
import ScriptCompiler.IR.Value

/-!
# Instructions

An instruction reads values and may define one.  Jumps, branches and returns are the terminators: a
well-formed block has one, at its end.  Here every instruction stands in one place and defines a
temporary or a slot; functions in which instructions and constants are shared between places are
`Shared.Function`.
-/

namespace ScriptCompiler.IR

/-- A reference to a basic block: its number in the function and its label. -/
structure BlockName where
  /-- The number of the block. -/
  id : Nat
  /-- The label of the block. -/
  label : Bytes
  deriving DecidableEq, Repr

/-- Where the function that a call names is found. -/
inductive Linkage where
  /-- The module defines it. -/
  | defined
  /-- The module declares it. -/
  | external
  /-- The module does not know it. -/
  | unknown
  deriving DecidableEq, Repr

/-- The function that a call names. -/
structure Callee where
  /-- Where it is found. -/
  linkage : Linkage
  /-- Its name. -/
  name : Bytes
  deriving DecidableEq, Repr

/-- An instruction. -/
inductive Instr where
  /-- An operation on two values. -/
  | binary (opcode : BinaryOpcode) (dest : Temp) (left right : Value)
  /-- An operation on one value. -/
  | unary (opcode : UnaryOpcode) (dest : Temp) (operand : Value)
  /-- Another name for a value. -/
  | copy (dest : Temp) (value : Value)
  /-- A new stack slot. -/
  | alloca (slot : Place)
  /-- The content of a slot. -/
  | load (dest : Temp) (address : Value)
  /-- A new content of a slot. -/
  | store (address value : Value)
  /-- A call, with a destination where the result is kept. -/
  | call (dest : Option Temp) (callee : Callee) (arguments : List Value)
  /-- Go on in another block. -/
  | jump (target : BlockName)
  /-- Go on in one of two blocks. -/
  | branch (condition : Value) (ifTrue ifFalse : BlockName)
  /-- Leave the function. -/
  | ret (value : Option Value)

namespace Instr

/-- The values that an instruction reads. -/
def operands : Instr → List Value
  | .binary _ _ left right => [left, right]
  | .unary _ _ operand => [operand]
  | .copy _ value => [value]
  | .alloca _ => []
  | .load _ address => [address]
  | .store address value => [address, value]
  | .call _ _ arguments => arguments
  | .jump _ => []
  | .branch condition _ _ => [condition]
  | .ret value => value.toList

/-- The value that an instruction defines. -/
def result? : Instr → Option Value
  | .binary _ dest _ _ | .unary _ dest _ | .copy dest _ | .load dest _ => some (.temp dest)
  | .alloca slot => some (.slot slot)
  | .call dest _ _ => dest.map .temp
  | .store .. | .jump _ | .branch .. | .ret _ => none

/-- Whether the instruction ends a block. -/
def isTerminator : Instr → Bool
  | .jump _ | .branch .. | .ret _ => true
  | _ => false

/-- Whether the instruction does more than define its result. -/
def hasEffect : Instr → Bool
  | .store .. | .call .. | .ret _ | .branch .. | .jump _ => true
  | _ => false

/-- The blocks that an instruction may go on in. -/
def targets : Instr → List BlockName
  | .jump target => [target]
  | .branch _ ifTrue ifFalse => [ifTrue, ifFalse]
  | _ => []

/-- An instruction as written. -/
def text : Instr → Bytes
  | .binary opcode dest left right =>
      dest.text ++ " = " ++ opcode.name ++ " " ++ left.text ++ ", " ++ right.text
  | .unary opcode dest operand => dest.text ++ " = " ++ opcode.name ++ " " ++ operand.text
  | .copy dest value => dest.text ++ " = " ++ value.text
  | .alloca slot => slot.text ++ " = alloca " ++ slot.type.name
  | .load dest address => dest.text ++ " = load " ++ address.text
  | .store address value => "store " ++ value.text ++ ", " ++ address.text
  | .call dest callee arguments =>
      (match dest with
        | some temp => temp.text ++ " = "
        | none => []) ++
        "call " ++ callee.name ++ "(" ++ Bytes.join ", " (arguments.map Value.text) ++ ")"
  | .jump target => "jump " ++ target.label
  | .branch condition ifTrue ifFalse =>
      "branch " ++ condition.text ++ ", " ++ ifTrue.label ++ ", " ++ ifFalse.label
  | .ret none => "return"
  | .ret (some value) => "return " ++ value.text

end Instr

end ScriptCompiler.IR
