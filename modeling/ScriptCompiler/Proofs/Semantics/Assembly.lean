import Mathlib.Logic.Function.Basic
import ScriptCompiler.LLVM.Module
import ScriptCompiler.Lowering.Expr
import ScriptCompiler.Proofs.Semantics.Machine

/-!
# The meaning of LLVM code

A function runs from its first block on.  Each activation has its own numbered results and its own
stack slots; a slot is made when control passes its `alloca` and then holds nothing.  Words wrap, a
division without a quotient has no meaning, and comparisons of doubles are ordered.  The address of
constant bytes is known by the bytes.  Operands refer to parameters, slots and results as such,
however these are spelt in a listing.

As for basic blocks, a bound limits the number of blocks that an activation enters and the depth of
calls.
-/

namespace ScriptCompiler.LLVM

open Semantics

/-- A value of running code. -/
inductive Scalar (Double : Type) where
  /-- A word of one bit. -/
  | bit (value : BitVec 1)
  /-- A word of 32 bits. -/
  | word (value : BitVec 32)
  /-- A floating-point number. -/
  | double (value : Double)
  /-- The address of constant bytes. -/
  | text (bytes : Bytes)

variable {Double : Type}

/-- The type of a value. -/
def Scalar.type : Scalar Double → LType
  | .bit _ => .int 1
  | .word _ => .int 32
  | .double _ => .double
  | .text _ => .pointer (.int 8)

/-- The calls of the output function with their arguments, the first call first. -/
abbrev Output (Double : Type) := List (List (Scalar Double))

/-- What a call comes to: a value, if the function has a result, and all output so far. -/
abbrev Outcome (Double : Type) := Option (Scalar Double) × Output Double

/-- A call of a function: the arguments and the output so far come to a value and more output. -/
abbrev Routine (Double : Type) :=
  Bytes → List (Scalar Double) → Output Double → Run Double (Outcome Double)

/-- One activation of a function. -/
structure Activation (Double : Type) where
  /-- The arguments by the names of the parameters. -/
  arguments : List (Bytes × Scalar Double)
  /-- The results of instructions so far, by their numbers. -/
  results : Nat → Option (Scalar Double) := fun _ => none
  /-- The slots made so far, with their types and what they hold, by their names. -/
  slots : Bytes → Option (LType × Option (Scalar Double)) := fun _ => none

namespace Activation

/-- The activation with a result. -/
def define (activation : Activation Double) (number : Nat) (scalar : Scalar Double) :
    Activation Double :=
  { activation with results := Function.update activation.results number (some scalar) }

/-- The activation with a slot and what it holds. -/
def put (activation : Activation Double) (name : Bytes) (type : LType)
    (content : Option (Scalar Double)) : Activation Double :=
  { activation with slots := Function.update activation.slots name (some (type, content)) }

/-- The activation behind a call: it has a result exactly if the result has a number. -/
def receive (activation : Activation Double) : Option Nat → Option (Scalar Double) →
    Option (Activation Double)
  | some number, some scalar => some (activation.define number scalar)
  | none, none => some activation
  | _, _ => none

end Activation

/-! ### Operations -/

/-- An operation on two values. -/
def Arithmetic.compute (machine : Machine Double) :
    Arithmetic → Scalar Double → Scalar Double → Option (Scalar Double)
  | .add, .word left, .word right => some (.word (left + right))
  | .sub, .word left, .word right => some (.word (left - right))
  | .mul, .word left, .word right => some (.word (left * right))
  | .sdiv, .word left, .word right =>
      if faulty left right then none else some (.word (left.sdiv right))
  | .srem, .word left, .word right =>
      if faulty left right then none else some (.word (left.srem right))
  | .fadd, .double left, .double right => some (.double (machine.add left right))
  | .fsub, .double left, .double right => some (.double (machine.sub left right))
  | .fmul, .double left, .double right => some (.double (machine.mul left right))
  | .fdiv, .double left, .double right => some (.double (machine.div left right))
  | .frem, .double left, .double right => some (.double (machine.rem left right))
  | .xor, .bit left, .bit right => some (.bit (left ^^^ right))
  | .xor, .word left, .word right => some (.word (left ^^^ right))
  | _, _, _ => none

/-- Whether a comparison of words holds. -/
def IntPredicate.holds {bits : Nat} (left right : BitVec bits) : IntPredicate → Bool
  | .eq => left == right
  | .ne => left != right
  | .slt => left.slt right
  | .sle => left.sle right
  | .sgt => right.slt left
  | .sge => right.sle left

/-- A comparison of words of one length. -/
def IntPredicate.compute (predicate : IntPredicate) :
    Scalar Double → Scalar Double → Option (Scalar Double)
  | .bit left, .bit right => some (.bit (.ofBool (predicate.holds left right)))
  | .word left, .word right => some (.bit (.ofBool (predicate.holds left right)))
  | _, _ => none

/-- Whether an ordered comparison of doubles holds. -/
def FloatPredicate.holds (machine : Machine Double) (left right : Double) : FloatPredicate → Bool
  | .oeq => machine.eq left right
  | .one => machine.ne left right
  | .olt => machine.lt left right
  | .ole => machine.le left right
  | .ogt => machine.gt left right
  | .oge => machine.ge left right

/-- A comparison of doubles. -/
def FloatPredicate.compute (machine : Machine Double) (predicate : FloatPredicate) :
    Scalar Double → Scalar Double → Option (Scalar Double)
  | .double left, .double right => some (.bit (.ofBool (predicate.holds machine left right)))
  | _, _ => none

/-- The negative of a double. -/
def Scalar.negated (machine : Machine Double) : Scalar Double → Option (Scalar Double)
  | .double value => some (.double (machine.neg value))
  | _ => none

/-- A bit widened with zeros. -/
def Scalar.widened : LType → Scalar Double → Option (Scalar Double)
  | .int 32, .bit value => some (.word (value.setWidth 32))
  | _, _ => none

/-! ### Execution -/

section Execution

variable (machine : Machine Double) (module : Module)

/-- The value of an operand; the address of a slot is none. -/
def Operand.scalar? (activation : Activation Double) : Operand → Option (Scalar Double)
  | .int value => some (.word (BitVec.ofInt 32 value))
  | .double value => some (.double (machine.ofFloat value))
  | .bool value => some (.bit (.ofBool value))
  | .text name size =>
      (module.texts.find? fun constant => constant.name == name &&
        constant.content.length == size).map fun constant => .text constant.content
  | .param name _ => activation.arguments.lookup name
  | .slot .. => none
  | .result number _ => activation.results number

/-- A call by name: a declared function is the output function or has no meaning here. -/
def Module.invoke (call : Routine Double) (name : Bytes) (arguments : List (Scalar Double))
    (output : Output Double) : Run Double (Outcome Double) :=
  if module.declarations.any fun declaration => declaration.name == name then
    if name == Lowering.formatter.name then
      .done (some (.word (machine.printed output.length)), output ++ [arguments])
    else .stuck
  else call name arguments output

/-- Go on with a result that may be missing. -/
def Activation.keep (activation : Activation Double) (output : Output Double) (number : Nat) :
    Option (Scalar Double) → Run Double (Activation Double × Output Double)
  | some scalar => .done (activation.define number scalar, output)
  | none => .stuck

/-- What an instruction does. -/
def Inst.run (call : Routine Double) (activation : Activation Double) (output : Output Double) :
    Inst → Run Double (Activation Double × Output Double)
  | .alloca name content => .done (activation.put name content none, output)
  | .load number content (.slot name _) =>
      match activation.slots name with
      | some (type, held) =>
          if type = content then activation.keep output number held else .stuck
      | none => .stuck
  | .store value (.slot name _) =>
      match activation.slots name, value.scalar? machine module activation with
      | some (type, _), some scalar =>
          if scalar.type = type then .done (activation.put name type (some scalar), output)
            else .stuck
      | _, _ => .stuck
  | .load .. | .store .. => .stuck
  | .arithmetic number operation left right =>
      activation.keep output number do
        operation.compute machine (← left.scalar? machine module activation)
          (← right.scalar? machine module activation)
  | .icmp number predicate left right =>
      activation.keep output number do
        predicate.compute (← left.scalar? machine module activation)
          (← right.scalar? machine module activation)
  | .fcmp number predicate left right =>
      activation.keep output number do
        predicate.compute machine (← left.scalar? machine module activation)
          (← right.scalar? machine module activation)
  | .fneg number operand =>
      activation.keep output number do (← operand.scalar? machine module activation).negated machine
  | .zext number operand target =>
      activation.keep output number do (← operand.scalar? machine module activation).widened target
  | .call number callee _ arguments =>
      match arguments.mapM (Operand.scalar? machine module activation) with
      | some scalars =>
          (module.invoke machine call callee scalars output).bind fun (value, output) =>
            match activation.receive number value with
            | some activation => .done (activation, output)
            | none => .stuck
      | none => .stuck

/-- Run instructions in order. -/
def runInsts (call : Routine Double) : List Inst → Activation Double → Output Double →
    Run Double (Activation Double × Output Double)
  | [], activation, output => .done (activation, output)
  | inst :: rest, activation, output =>
      (inst.run machine module call activation output).bind fun (activation, output) =>
        runInsts call rest activation output

variable {machine module} in
theorem runInsts_append (call : Routine Double) (first second : List Inst)
    (activation : Activation Double) (output : Output Double) :
    runInsts machine module call (first ++ second) activation output =
      (runInsts machine module call first activation output).bind fun (activation, output) =>
        runInsts machine module call second activation output := by
  induction first generalizing activation output with
  | nil => rfl
  | cons inst rest ih =>
      rw [List.cons_append, runInsts, runInsts, Run.bind_assoc]
      congr
      funext (activation, output)
      exact ih activation output

variable {machine module} in
theorem runInsts_singleton (call : Routine Double) (inst : Inst) (activation : Activation Double)
    (output : Output Double) :
    runInsts machine module call [inst] activation output =
      inst.run machine module call activation output := by
  rw [runInsts]
  cases inst.run machine module call activation output <;> rfl

/-- How a run goes on at a label. -/
abbrev Course (Double : Type) :=
  Option Bytes → Activation Double → Output Double → Run Double (Outcome Double)

/-- What the end of a block does. -/
def Terminator.run (goto : Course Double) (activation : Activation Double)
    (output : Output Double) :
    Terminator → Run Double (Outcome Double)
  | .br target => goto target activation output
  | .condBr condition ifTrue ifFalse =>
      match condition.scalar? machine module activation with
      | some (.bit value) => goto (if value = 1#1 then ifTrue else ifFalse) activation output
      | _ => .stuck
  | .ret none => .done (none, output)
  | .ret (some value) =>
      match value.scalar? machine module activation with
      | some scalar => .done (some scalar, output)
      | none => .stuck

/-- What the end of a block does behind its instructions, if it has one. -/
def endBlock (goto : Course Double) (terminator : Option Terminator)
    (reached : Activation Double × Output Double) : Run Double (Outcome Double) :=
  match terminator with
  | some ending => ending.run machine module goto reached.1 reached.2
  | none => .stuck

/-- What a block does. -/
def Block.run (call : Routine Double) (goto : Course Double) (block : Block)
    (activation : Activation Double) (output : Output Double) : Run Double (Outcome Double) :=
  (runInsts machine module call block.insts activation output).bind
    (endBlock machine module goto block.terminator)

/-- The block with a label. -/
def Function.block? (function : Function) (label : Bytes) : Option Block :=
  function.blocks.find? fun block => block.label == label

/-- Go on at a label of a function through a bounded number of blocks. -/
def Function.goto (function : Function) (call : Routine Double) : Nat → Course Double
  | 0, _, _, _ => .unfinished
  | bound + 1, target, activation, output =>
      match target.bind function.block? with
      | some block => block.run machine module call (function.goto call bound) activation output
      | none => .stuck

/-- The function with a name. -/
def Module.function? (name : Bytes) : Option Function :=
  module.functions.find? fun function => function.name == name

/-- A call of a function of a module from its first block on.  The bound limits the depth of calls,
and at each depth the number of blocks entered. -/
def Module.call : Nat → Routine Double
  | 0, _, _, _ => .unfinished
  | bound + 1, name, arguments, output =>
      match module.function? name with
      | some function =>
          if arguments.map Scalar.type = function.params.map Prod.snd then
            function.goto machine module (Module.call bound) bound
              (function.blocks.head?.map Block.label)
              { arguments := (function.params.map Prod.fst).zip arguments } output
          else .stuck
      | none => .stuck

/-- Calls of a function with some arguments and no output so far come to an outcome. -/
def Module.Returns (name : Bytes) (arguments : List (Scalar Double)) (outcome : Outcome Double) :
    Prop :=
  ∃ bound, module.call machine bound name arguments [] = .done outcome

/-- Calls of a function with some arguments and no output so far never come to an end. -/
def Module.RunsOn (name : Bytes) (arguments : List (Scalar Double)) : Prop :=
  ∀ bound, module.call machine bound name arguments [] = .unfinished

end Execution

end ScriptCompiler.LLVM
