import Mathlib.Logic.Function.Basic
import ScriptCompiler.IR.Module
import ScriptCompiler.Lowering.Expr
import ScriptCompiler.Proofs.Semantics.Machine

/-!
# The meaning of basic blocks

A function runs from its entry block on.  Each activation has its own results and stack slots; a
slot is made by its `alloca`, once for an activation, and holds nothing before the first store.  A
bound limits the number of blocks that an activation enters and the depth of calls.

The main facts are that a greater bound only finishes what was unfinished (`Function.enter_below`,
`Module.call_below`).
-/

namespace ScriptCompiler.IR

open Semantics

variable {Double : Type}

/-- One activation of a function. -/
structure Frame (Double : Type) where
  /-- The arguments in order. -/
  arguments : List (Datum Double)
  /-- The results of instructions so far, by their numbers. -/
  temps : Nat → Option (Datum Double) := fun _ => none
  /-- The slots made so far and what they hold, by their numbers. -/
  slots : Nat → Option (Option (Datum Double)) := fun _ => none

namespace Frame

/-- The frame with a result. -/
def define (frame : Frame Double) (temp : Temp) (datum : Datum Double) : Frame Double :=
  { frame with temps := Function.update frame.temps temp.id (some datum) }

/-- The frame with a slot; a slot that is there already stays as it is. -/
def make (frame : Frame Double) (place : Place) : Frame Double :=
  { frame with
    slots := Function.update frame.slots place.id ((frame.slots place.id).or (some none)) }

/-- The frame with a new content of a slot. -/
def fill (frame : Frame Double) (place : Place) (datum : Datum Double) : Frame Double :=
  { frame with slots := Function.update frame.slots place.id (some (some datum)) }

/-- The content of a slot. -/
def content? (frame : Frame Double) (place : Place) : Option (Datum Double) :=
  (frame.slots place.id).join

/-- The frame after a call; the result must be there if it is kept. -/
def receive (frame : Frame Double) (dest : Option Temp) (value : Option (Datum Double)) :
    Option (Frame Double) :=
  match dest, value with
  | none, _ => some frame
  | some temp, some datum => some (frame.define temp datum)
  | some _, none => none

end Frame

/-- The value of a constant. -/
def Constant.datum? (machine : Machine Double) : Constant → Option (Datum Double)
  | .int value => some (.int (BitVec.ofInt 32 value))
  | .float value => some (.float (machine.ofFloat value))
  | .bool value => some (.bool value)
  | .nothing => none

/-- The value of an operand; the address of a slot is none. -/
def Value.datum? (machine : Machine Double) (strings : List Bytes) (frame : Frame Double) :
    Value → Option (Datum Double)
  | .constant content => content.datum? machine
  | .param place => frame.arguments[place.id]?
  | .slot _ => none
  | .temp result => frame.temps result.id
  | .string index => strings[index]?.map .string
  | .stray _ => none

/-- An operation on two values. -/
def BinaryOpcode.compute (machine : Machine Double) :
    BinaryOpcode → Datum Double → Datum Double → Computed Double
  | .add, .int left, .int right => .value (.int (left + right))
  | .sub, .int left, .int right => .value (.int (left - right))
  | .mul, .int left, .int right => .value (.int (left * right))
  | .div, .int left, .int right =>
      if faulty left right then .trap else .value (.int (left.sdiv right))
  | .mod, .int left, .int right =>
      if faulty left right then .trap else .value (.int (left.srem right))
  | .eq, .int left, .int right => .value (.bool (left == right))
  | .ne, .int left, .int right => .value (.bool (left != right))
  | .lt, .int left, .int right => .value (.bool (left.slt right))
  | .le, .int left, .int right => .value (.bool (left.sle right))
  | .gt, .int left, .int right => .value (.bool (right.slt left))
  | .ge, .int left, .int right => .value (.bool (right.sle left))
  | .fadd, .float left, .float right => .value (.float (machine.add left right))
  | .fsub, .float left, .float right => .value (.float (machine.sub left right))
  | .fmul, .float left, .float right => .value (.float (machine.mul left right))
  | .fdiv, .float left, .float right => .value (.float (machine.div left right))
  | .fmod, .float left, .float right => .value (.float (machine.rem left right))
  | .feq, .float left, .float right => .value (.bool (machine.eq left right))
  | .fne, .float left, .float right => .value (.bool (machine.ne left right))
  | .flt, .float left, .float right => .value (.bool (machine.lt left right))
  | .fle, .float left, .float right => .value (.bool (machine.le left right))
  | .fgt, .float left, .float right => .value (.bool (machine.gt left right))
  | .fge, .float left, .float right => .value (.bool (machine.ge left right))
  | .eq, .bool left, .bool right => .value (.bool (left == right))
  | .ne, .bool left, .bool right => .value (.bool (left != right))
  | _, _, _ => .stuck

/-- An operation on one value. -/
def UnaryOpcode.compute (machine : Machine Double) :
    UnaryOpcode → Datum Double → Computed Double
  | .neg, .int value => .value (.int (-value))
  | .fneg, .float value => .value (.float (machine.neg value))
  | .not, .bool value => .value (.bool !value)
  | _, _ => .stuck

/-- What an instruction asks for. -/
inductive Action (Double : Type) where
  /-- Go on with the next instruction. -/
  | proceed (frame : Frame Double)
  /-- Call a function of the module. -/
  | invoke (dest : Option Temp) (callee : Bytes) (arguments : List (Datum Double))
  /-- Call the output function. -/
  | print (dest : Option Temp) (event : Event Double)
  /-- Go on in another block. -/
  | goto (target : Nat)
  /-- Leave the function. -/
  | leave (value : Option (Datum Double))
  /-- Trap. -/
  | trap
  /-- The instruction has no meaning here. -/
  | stuck

/-- What a computation asks for: its result is kept. -/
def Action.ofComputed (frame : Frame Double) (dest : Temp) : Computed Double → Action Double
  | .value result => .proceed (frame.define dest result)
  | .trap => .trap
  | .stuck => .stuck

section Execution

variable (machine : Machine Double) (strings : List Bytes)

/-- What the call of an external function with arguments asks for: there is only the output
function. -/
def externalAction (dest : Option Temp) (name : Bytes) : List (Datum Double) → Action Double
  | [.string format, argument] =>
      if name == Lowering.formatter.name then .print dest ⟨format, argument⟩ else .stuck
  | _ => .stuck

/-- What an instruction asks for in a frame. -/
def Instr.action (frame : Frame Double) : Instr → Action Double
  | .binary opcode dest left right =>
      match left.datum? machine strings frame, right.datum? machine strings frame with
      | some first, some second => .ofComputed frame dest (opcode.compute machine first second)
      | _, _ => .stuck
  | .unary opcode dest operand =>
      match operand.datum? machine strings frame with
      | some value => .ofComputed frame dest (opcode.compute machine value)
      | none => .stuck
  | .copy dest value =>
      match value.datum? machine strings frame with
      | some datum => .proceed (frame.define dest datum)
      | none => .stuck
  | .alloca slot => .proceed (frame.make slot)
  | .load dest (.slot place) =>
      match frame.content? place with
      | some datum => .proceed (frame.define dest datum)
      | none => .stuck
  | .store (.slot place) value =>
      match frame.slots place.id, value.datum? machine strings frame with
      | some _, some datum => .proceed (frame.fill place datum)
      | _, _ => .stuck
  | .load .. | .store .. => .stuck
  | .call dest callee arguments =>
      match arguments.mapM (Value.datum? machine strings frame), callee.linkage with
      | some data, .defined => .invoke dest callee.name data
      | some data, .external => externalAction dest callee.name data
      | _, _ => .stuck
  | .jump target => .goto target.id
  | .branch condition ifTrue ifFalse =>
      match condition.datum? machine strings frame with
      | some (.bool true) => .goto ifTrue.id
      | some (.bool false) => .goto ifFalse.id
      | _ => .stuck
  | .ret none => .leave none
  | .ret (some value) =>
      match value.datum? machine strings frame with
      | some datum => .leave (some datum)
      | none => .stuck

/-- How a run goes on behind a block. -/
abbrev Onward (Double : Type) :=
  Nat → Frame Double → Trace Double → Run Double (Option (Datum Double) × Trace Double)

/-- Run instructions in order, with a given meaning of calls and jumps. -/
def runInstrs (call : Call Double) (goto : Onward Double) :
    List Instr → Frame Double → Trace Double → Run Double (Option (Datum Double) × Trace Double)
  | [], _, _ => .stuck
  | instr :: rest, frame, trace =>
      match instr.action machine strings frame with
      | .proceed frame => runInstrs call goto rest frame trace
      | .invoke dest callee arguments =>
          (call callee arguments trace).bind fun (value, trace) =>
            match frame.receive dest value with
            | some frame => runInstrs call goto rest frame trace
            | none => .stuck
      | .print dest event =>
          match frame.receive dest (some (.int (machine.printed trace.length))) with
          | some frame => runInstrs call goto rest frame (trace ++ [event])
          | none => .stuck
      | .goto target => goto target frame trace
      | .leave value => .done (value, trace)
      | .trap => .trapped trace
      | .stuck => .stuck

/-- Enter a block of a function and go on from there through a bounded number of blocks. -/
def Function.enter (function : Function) (call : Call Double) : Nat → Onward Double
  | 0, _, _, _ => .unfinished
  | bound + 1, id, frame, trace =>
      match function.block? id with
      | none => .stuck
      | some block =>
          runInstrs machine strings call (function.enter call bound) block.instrs frame trace

/-- A call of a function of a module.  The bound limits the depth of calls, and at each depth the
number of blocks entered. -/
def Module.call (module : Module) : Nat → Call Double
  | 0, _, _, _ => .unfinished
  | bound + 1, name, arguments, trace =>
      match module.function? name with
      | none => .stuck
      | some function =>
          function.enter machine module.strings (module.call bound) bound Function.entry
            { arguments } trace

variable {machine strings}

/-- Larger bounds behind a block finish what smaller ones finish. -/
def Onward.Below (smaller larger : Onward Double) : Prop :=
  ∀ id frame trace, (smaller id frame trace).Below (larger id frame trace)

theorem runInstrs_below {call call' : Call Double} {goto goto' : Onward Double}
    (calls : call.Below call') (gotos : goto.Below goto') (instrs : List Instr)
    (frame : Frame Double) (trace : Trace Double) :
    (runInstrs machine strings call goto instrs frame trace).Below
      (runInstrs machine strings call' goto' instrs frame trace) := by
  induction instrs generalizing frame trace with
  | nil => exact Run.Below.refl _
  | cons instr rest ih =>
      simp only [runInstrs]
      cases instr.action machine strings frame with
      | proceed next => exact ih next trace
      | invoke dest callee arguments =>
          refine Run.Below.bind (calls callee arguments trace) ?_
          rintro ⟨value, later⟩
          dsimp only
          cases frame.receive dest value with
          | none => exact Run.Below.refl _
          | some next => exact ih next later
      | print dest event =>
          dsimp only
          cases frame.receive dest (some (.int (machine.printed trace.length))) with
          | none => exact Run.Below.refl _
          | some next => exact ih next _
      | goto target => exact gotos target frame trace
      | leave value => exact Run.Below.refl _
      | trap => exact Run.Below.refl _
      | stuck => exact Run.Below.refl _

theorem Function.enter_below (function : Function) {call call' : Call Double}
    (calls : call.Below call') {bound bound' : Nat} (bounds : bound ≤ bound') :
    (function.enter machine strings call bound).Below
      (function.enter machine strings call' bound') := by
  induction bound generalizing bound' with
  | zero => exact fun id frame trace => Run.Below.of_unfinished _
  | succ bound ih =>
      obtain ⟨larger, rfl⟩ : ∃ larger, bound' = larger + 1 := ⟨bound' - 1, by omega⟩
      intro id frame trace
      simp only [Function.enter]
      cases function.block? id with
      | none => exact Run.Below.refl _
      | some block => exact runInstrs_below calls (ih (by omega)) block.instrs frame trace

theorem Module.call_below (module : Module) {bound bound' : Nat} (bounds : bound ≤ bound') :
    (module.call machine bound).Below (module.call machine bound') := by
  induction bound generalizing bound' with
  | zero => exact fun name arguments trace => Run.Below.of_unfinished _
  | succ bound ih =>
      obtain ⟨larger, rfl⟩ : ∃ larger, bound' = larger + 1 := ⟨bound' - 1, by omega⟩
      intro name arguments trace
      simp only [Module.call]
      cases module.function? name with
      | none => exact Run.Below.refl _
      | some function =>
          exact function.enter_below (ih (by omega)) (by omega) Function.entry { arguments } trace

end Execution

end ScriptCompiler.IR
