import ScriptCompiler.Text.Quoted

/-!
# Names and texts in LLVM assembly

A name of letters, digits and `$._-` is written as it is, any other one in quotes; bytes that would
end or break the quotes are written as a backslash and two hexadecimal digits.
-/

namespace ScriptCompiler.LLVM

/-- A byte as a backslash and two capital hexadecimal digits. -/
def escapedByte (byte : UInt8) : Bytes :=
  let digit : Nat → UInt8 :=
    fun value => if value < 10 then (0x30 + value).toUInt8 else (0x37 + value).toUInt8
  [0x5C, digit (byte.toNat / 16), digit (byte.toNat % 16)]

/-- A byte that stands for itself between quotes. -/
def isPlainByte (byte : UInt8) : Bool :=
  0x20 ≤ byte && byte ≤ 0x7E && byte != 0x22 && byte != 0x5C

/-- A text between quotes, without the quotes. -/
def quotedContent (text : Bytes) : Bytes :=
  text.flatMap fun byte => if isPlainByte byte then [byte] else escapedByte byte

/-- A byte that a name may hold without quotes. -/
def isNameByte (byte : UInt8) : Bool :=
  (0x30 ≤ byte && byte ≤ 0x39) || (0x41 ≤ byte && byte ≤ 0x5A) || (0x61 ≤ byte && byte ≤ 0x7A) ||
    byte == 0x24 || byte == 0x2D || byte == 0x2E || byte == 0x5F

/-- A text in quotes. -/
def quoted (text : Bytes) : Bytes := "\"" ++ quotedContent text ++ "\""

/-- Whether a name could be taken for the number of an unnamed value. -/
def isNumber (name : Bytes) : Bool :=
  !name.isEmpty && name.all (fun byte => 0x30 ≤ byte && byte ≤ 0x39) &&
    name.foldl (fun value byte => value * 10 + (byte.toNat - 0x30)) 0 < Nat.pow 2 64

/-- A name as written. -/
def nameText (name : Bytes) : Bytes :=
  if isNumber name || name.any (fun byte => !isNameByte byte) then quoted name else name

/-- The names of the functions that a text in LLVM assembly defines, line by line. -/
def definedNames (text : Bytes) : List Bytes :=
  ((Bytes.splitOn 0x0A text).filterMap fun line =>
    if !(Bytes.ofString "define ").isPrefixOf line then none
    else
      match line.dropWhile (· != 0x40) with
      | [] => none
      | _ :: rest =>
          let name := (rest.takeWhile (· != 0x28)).dropWhile (· == 0x22)
          some (name.reverse.dropWhile (· == 0x22)).reverse).eraseDups

end ScriptCompiler.LLVM
