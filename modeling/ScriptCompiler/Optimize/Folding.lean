import ScriptCompiler.IR.Function
import ScriptCompiler.Number.Binary64

/-!
# Constant folding

Operations on constants are computed at once, and branches on constants become jumps.  A copy of a
constant makes the constant known for the rest of the function, in the order of blocks and
instructions.  Integer results wrap to 32 bits; a division that would trap is left alone.
-/

namespace ScriptCompiler.IR

/-- The 32-bit integer that an integer wraps to. -/
def wrap32 (value : Int) : Int := value.bmod 4294967296

/-- Whether an integer division traps: by zero, or the least number by minus one. -/
def divisionTraps (dividend divisor : Int) : Bool :=
  divisor == 0 || (dividend == -2147483648 && divisor == -1)

namespace BinaryOpcode

/-- The result of an operation on two integers.  Division goes towards zero. -/
def onInts? (opcode : BinaryOpcode) (left right : Int) : Option Constant :=
  match opcode with
  | .add => some (.int (wrap32 (left + right)))
  | .sub => some (.int (wrap32 (left - right)))
  | .mul => some (.int (wrap32 (left * right)))
  | .div => if divisionTraps left right then none else some (.int (wrap32 (left.tdiv right)))
  | .mod => if divisionTraps left right then none else some (.int (wrap32 (left.tmod right)))
  | .eq => some (.bool (left == right))
  | .ne => some (.bool (left != right))
  | .lt => some (.bool (left < right))
  | .le => some (.bool (left ≤ right))
  | .gt => some (.bool (right < left))
  | .ge => some (.bool (right ≤ left))
  | _ => none

/-- The result of an operation on two floating-point numbers.  A comparison with what is not a
number is false. -/
def onFloats? (opcode : BinaryOpcode) (left right : Float) : Option Constant :=
  let ordered := !left.isNaN && !right.isNaN
  match opcode with
  | .fadd => some (.float (left + right))
  | .fsub => some (.float (left - right))
  | .fmul => some (.float (left * right))
  | .fdiv => some (.float (left / right))
  | .fmod => some (.float (Binary64.remainder left right))
  | .feq => some (.bool (ordered && left == right))
  | .fne => some (.bool (ordered && left != right))
  | .flt => some (.bool (ordered && decide (left < right)))
  | .fle => some (.bool (ordered && decide (left ≤ right)))
  | .fgt => some (.bool (ordered && decide (right < left)))
  | .fge => some (.bool (ordered && decide (right ≤ left)))
  | _ => none

/-- The result of an operation on two truth values. -/
def onBools? (opcode : BinaryOpcode) (left right : Bool) : Option Constant :=
  match opcode with
  | .eq => some (.bool (left == right))
  | .ne => some (.bool (left != right))
  | _ => none

/-- The result of an operation on two constants. -/
def onConstants? (opcode : BinaryOpcode) : Constant → Constant → Option Constant
  | .int left, .int right => opcode.onInts? left right
  | .float left, .float right => opcode.onFloats? left right
  | .bool left, .bool right => opcode.onBools? left right
  | _, _ => none

end BinaryOpcode

/-- The result of an operation on a constant. -/
def UnaryOpcode.onConstant? : UnaryOpcode → Constant → Option Constant
  | .neg, .int value => some (.int (wrap32 (-value)))
  | .fneg, .float value => some (.float (-value))
  | .not, .bool value => some (.bool !value)
  | _, _ => none

/-- The constants that results are known to be, by their numbers. -/
abbrev Known := List (Nat × Constant)

namespace Value

/-- The constant that a value is known to be. -/
def known? (known : Known) : Value → Option Constant
  | .temp result => known.lookup result.id
  | _ => none

/-- A value with what is known put in its place. -/
def replaced (known : Known) (value : Value) : Value :=
  match value.known? known with
  | some content => .constant content
  | none => value

end Value

namespace Instr

/-- The values of an instruction that a constant may stand in for: all that it reads but
addresses. -/
def inputs : Instr → List Value
  | .load .. => []
  | .store _ value => [value]
  | instr => instr.operands

/-- An instruction with known constants in the place of its inputs. -/
def substituted (known : Known) : Instr → Instr
  | .binary opcode dest left right =>
      .binary opcode dest (left.replaced known) (right.replaced known)
  | .unary opcode dest operand => .unary opcode dest (operand.replaced known)
  | .copy dest value => .copy dest (value.replaced known)
  | .store address value => .store address (value.replaced known)
  | .call dest callee arguments => .call dest callee (arguments.map (Value.replaced known))
  | .branch condition ifTrue ifFalse => .branch (condition.replaced known) ifTrue ifFalse
  | .ret value => .ret (value.map (Value.replaced known))
  | instr => instr

/-- Whether a known constant stands in the place of an input. -/
def isSubstituted (known : Known) (instr : Instr) : Bool :=
  instr.inputs.any fun value => (value.known? known).isSome

/-- The result and the constant of an operation that can be computed at once. -/
def computed? : Instr → Option (Temp × Constant)
  | .binary opcode dest (.constant left) (.constant right) =>
      (opcode.onConstants? left right).map fun result => (dest, result)
  | .unary opcode dest (.constant operand) =>
      (opcode.onConstant? operand).map fun result => (dest, result)
  | _ => none

/-- The taken and the dropped block of a branch on a constant. -/
def decided? : Instr → Option (BlockName × BlockName)
  | .branch (.constant (.bool true)) ifTrue ifFalse => some (ifTrue, ifFalse)
  | .branch (.constant (.bool false)) ifTrue ifFalse => some (ifFalse, ifTrue)
  | _ => none

end Instr

/-- What folding has found so far. -/
structure Folding where
  /-- The constants known so far. -/
  known : Known := []
  /-- The number of operations and branches folded. -/
  folded : Nat := 0
  /-- Whether anything changed. -/
  changed : Bool := false

namespace Folding

/-- Fold one instruction.  The third answer is the block that control no longer passes to. -/
def onInstr (state : Folding) (instr : Instr) : Folding × Instr × Option BlockName :=
  let given := instr.substituted state.known
  let next := { state with changed := state.changed || instr.isSubstituted state.known }
  match given.computed? with
  | some (dest, constant) =>
      ({ known := (dest.id, constant) :: next.known, folded := next.folded + 1, changed := true },
        .copy dest (.constant constant), none)
  | none =>
      match given.decided? with
      | some (taken, dropped) =>
          ({ next with folded := next.folded + 1, changed := true }, .jump taken,
            if dropped.id == taken.id then none else some dropped)
      | none =>
          match given with
          | .copy dest (.constant constant) =>
              ({ next with known := (dest.id, constant) :: next.known }, given, none)
          | _ => (next, given, none)

/-- Fold the instructions of a block in order. -/
def onInstrs (state : Folding) : List Instr → Folding × List Instr × List BlockName
  | [] => (state, [], [])
  | instr :: rest =>
      let (next, folded, dropped) := state.onInstr instr
      let (last, others, droppedLater) := next.onInstrs rest
      (last, folded :: others, dropped.toList ++ droppedLater)

/-- Fold the blocks of a function in order. -/
def onBlocks (state : Folding) : List Block → Folding × List Block × List (BlockName × BlockName)
  | [] => (state, [], [])
  | block :: rest =>
      let (next, instrs, dropped) := state.onInstrs block.instrs
      let (last, blocks, edges) := next.onBlocks rest
      (last, { block with instrs } :: blocks,
        dropped.map (fun target => (block.name, target)) ++ edges)

end Folding

namespace Function

/-- Fold the constants of a function: the function, and what was found. -/
def foldConstants (function : Function) : Function × Folding :=
  let (found, blocks, edges) := Folding.onBlocks {} function.blocks
  (edges.foldl (fun function edge => function.removeEdge edge.1 edge.2) { function with blocks },
    found)

end Function

end ScriptCompiler.IR
