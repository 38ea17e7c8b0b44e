import ScriptCompiler.Text.Rune

/-!
# Operation codes

Operations on integers and on floating-point numbers are different codes, so that a code fixes the
type of its operands; a comparison yields a truth value.  A number that names no operation is kept
as it is.
-/

namespace ScriptCompiler.IR

/-- An operation on two values. -/
inductive BinaryOpcode where
  | add
  | sub
  | mul
  | div
  | mod
  | fadd
  | fsub
  | fmul
  | fdiv
  | fmod
  | eq
  | ne
  | lt
  | le
  | gt
  | ge
  | feq
  | fne
  | flt
  | fle
  | fgt
  | fge
  /-- A number without an operation. -/
  | unlisted (code : Int)
  deriving DecidableEq, Repr

namespace BinaryOpcode

/-- The named operations in the order of their numbers. -/
def all : List BinaryOpcode :=
  [.add, .sub, .mul, .div, .mod, .fadd, .fsub, .fmul, .fdiv, .fmod, .eq, .ne, .lt, .le, .gt,
    .ge, .feq,
    .fne, .flt, .fle, .fgt, .fge]

/-- The operation with a number. -/
def ofCode (code : Int) : BinaryOpcode :=
  if code < 0 then .unlisted code else (all[code.toNat]?).getD (.unlisted code)

/-- The number of an operation. -/
def code : BinaryOpcode → Int
  | .unlisted code => code
  | opcode => (all.idxOf opcode : Nat)

/-- The name of an operation. -/
def name : BinaryOpcode → Bytes
  | .add => "add"
  | .sub => "sub"
  | .mul => "mul"
  | .div => "div"
  | .mod => "mod"
  | .fadd => "fadd"
  | .fsub => "fsub"
  | .fmul => "fmul"
  | .fdiv => "fdiv"
  | .fmod => "fmod"
  | .eq => "eq"
  | .ne => "ne"
  | .lt => "lt"
  | .le => "le"
  | .gt => "gt"
  | .ge => "ge"
  | .feq => "feq"
  | .fne => "fne"
  | .flt => "flt"
  | .fle => "fle"
  | .fgt => "fgt"
  | .fge => "fge"
  | .unlisted _ => "?"

/-- The operation with a name. -/
def ofName? (name : Bytes) : Option BinaryOpcode := all.find? fun opcode => opcode.name == name

/-- Whether the operation yields a truth value: all numbers from the first comparison on. -/
def isComparison (opcode : BinaryOpcode) : Bool := 10 ≤ opcode.code

/-- Whether the operation works on floating-point numbers. -/
def isFloat (opcode : BinaryOpcode) : Bool :=
  (5 ≤ opcode.code && opcode.code ≤ 9) || 16 ≤ opcode.code

end BinaryOpcode

/-- An operation on one value. -/
inductive UnaryOpcode where
  /-- The negative of an integer. -/
  | neg
  /-- The negative of a floating-point number. -/
  | fneg
  /-- The opposite of a truth value. -/
  | not
  /-- A number without an operation. -/
  | unlisted (code : Int)
  deriving DecidableEq, Repr

namespace UnaryOpcode

/-- The named operations in the order of their numbers. -/
def all : List UnaryOpcode := [.neg, .fneg, .not]

/-- The operation with a number. -/
def ofCode (code : Int) : UnaryOpcode :=
  if code < 0 then .unlisted code else (all[code.toNat]?).getD (.unlisted code)

/-- The name of an operation. -/
def name : UnaryOpcode → Bytes
  | .neg => "neg"
  | .fneg => "fneg"
  | .not => "not"
  | .unlisted _ => "?"

/-- The operation with a name. -/
def ofName? (name : Bytes) : Option UnaryOpcode := all.find? fun opcode => opcode.name == name

end UnaryOpcode

end ScriptCompiler.IR
