import ScriptCompiler.LLVM.Name
import ScriptCompiler.Number.Decimal
import ScriptCompiler.Ty

/-!
# Types and operands of LLVM assembly

The types that generated code uses, and its operands as written.
-/

namespace ScriptCompiler.LLVM

/-- A type of LLVM assembly. -/
inductive LType where
  /-- No value. -/
  | void
  /-- Integers of a number of bits. -/
  | int (bits : Nat)
  /-- 64-bit floating-point numbers. -/
  | double
  /-- The address of a value. -/
  | pointer (content : LType)
  deriving DecidableEq, Repr

namespace LType

/-- A type as written. -/
def text : LType → Bytes
  | .void => "void"
  | .int bits => "i" ++ Bytes.ofNat bits
  | .double => "double"
  | .pointer content => content.text ++ "*"

/-- The type that represents a type of the script language. -/
def ofBasic : BasicType → LType
  | .int => .int 32
  | .float => .double
  | .bool => .int 1
  | .string => .pointer (.int 8)
  | .void | .invalid => .void

/-- The type that represents any type; a function has no value. -/
def ofType : Ty → LType
  | .basic type => ofBasic type
  | .function .. => .void

end LType

/-- Digits of a number in a base, the lowest first; at most `fuel` of them. -/
def lowDigits (base : Nat) : Nat → Nat → List Nat
  | 0, _ => []
  | fuel + 1, number =>
      if number == 0 then [] else number % base :: lowDigits base fuel (number / base)

/-- The part of the digits that are distinct, where at most `most` can be. -/
def variety (most : Nat) (digits : List Nat) : Float :=
  Float.ofNat digits.eraseDups.length / Float.ofNat (min digits.length most)

/-- The greatest variety of hexadecimal digits of a number that is written with them. -/
def varietyLimit (length : Nat) : Float :=
  if length ≤ 6 then 2 / Float.ofNat length
  else if length ≤ 10 then 3 / Float.ofNat length
  else 4 / Float.ofNat (min length 16)

/-- Whether a number reads better in hexadecimal: it is long enough, its hexadecimal digits vary
little, and its decimal digits vary much more. -/
def prefersHexadecimal (number : Nat) : Bool :=
  let digits := lowDigits 16 (Nat.log2 number + 1) number
  let hexadecimal := variety 16 digits
  let decimal := variety 10 (lowDigits 10 (Nat.log2 number + 1) number)
  4096 ≤ number && decide (hexadecimal ≤ varietyLimit digits.length + 0.01) &&
    decide (hexadecimal + 0.2 ≤ decimal)

/-- The capital hexadecimal digits of a number. -/
def capitalHex (number : Nat) : Bytes :=
  if number == 0 then "0"
  else
    (lowDigits 16 (Nat.log2 number + 1) number).reverse.map fun value =>
      if value < 10 then (0x30 + value).toUInt8 else (0x37 + value).toUInt8

/-- An integer constant as written. -/
def intText (value : Int) : Bytes :=
  if 0 ≤ value && prefersHexadecimal value.toNat then "u0x" ++ capitalHex value.toNat
  else Bytes.ofInt value

/-- Doubles are written positionally up to five digits behind the first one. -/
def doubleLayout : Decimal.Layout := { beyond := 6 }

/-- A decimal with a fraction: `.0` goes before the exponent or at the end if there is no point. -/
def withFraction (text : Bytes) : Bytes :=
  if text.contains 0x2E then text
  else text.takeWhile (· != 0x65) ++ ".0" ++ text.dropWhile (· != 0x65)

/-- A double constant as written: the shortest decimal if it is the exact value, and the bits
otherwise. -/
def doubleText (value : Float) : Bytes :=
  if value.isNaN then "0x7FF8000000000000"
  else
    match Binary64.shape value with
    | .finite _ mantissa exponent =>
        if (Decimal.shortest mantissa exponent).isExactly mantissa exponent then
          withFraction (Binary64.text doubleLayout value)
        else "0x" ++ capitalHex value.toBits.toNat
    | _ => "0x" ++ capitalHex value.toBits.toNat

/-- An operand. -/
inductive Operand where
  /-- A 32-bit integer. -/
  | int (value : Int)
  /-- A double. -/
  | double (value : Float)
  /-- A truth value. -/
  | bool (value : Bool)
  /-- The address of a string constant with a name and a number of bytes. -/
  | text (name : Bytes) (size : Nat)
  /-- A parameter of the function. -/
  | param (name : Bytes) (type : LType)
  /-- The address of a stack slot. -/
  | slot (name : Bytes) (content : LType)
  /-- The numbered result of an instruction. -/
  | result (number : Nat) (type : LType)

namespace Operand

/-- The type of an operand. -/
def type : Operand → LType
  | .int _ => .int 32
  | .double _ => .double
  | .bool _ => .int 1
  | .text .. => .pointer (.int 8)
  | .param _ type => type
  | .slot _ content => .pointer content
  | .result _ type => type

/-- An operand as written, without its type. -/
def name : Operand → Bytes
  | .int value => intText value
  | .double value => doubleText value
  | .bool true => "true"
  | .bool false => "false"
  | .text name size =>
      let array : Bytes := "[" ++ Bytes.ofNat size ++ " x i8]"
      "getelementptr (" ++ array ++ ", " ++ array ++ "* @" ++ nameText name ++ ", i64 0, i64 0)"
  | .param name _ => "%" ++ nameText name
  | .slot name _ => "%" ++ nameText name
  | .result number _ => "%" ++ Bytes.ofNat number

/-- An operand as written, with its type. -/
def typed (operand : Operand) : Bytes := operand.type.text ++ " " ++ operand.name

end Operand

end ScriptCompiler.LLVM
