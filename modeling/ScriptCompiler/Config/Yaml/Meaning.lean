import ScriptCompiler.Config.Moment
import ScriptCompiler.Config.Yaml.Node

/-!
# What a scalar means

A scalar without quotes means nothing, a truth value, a number, a moment or its text, as its
spelling tells.  Any other scalar means its text.  A tag asks for one of these meanings, or for the
bytes that the text spells in base 64; a tag that is not known leaves the text as it is.
-/

namespace ScriptCompiler.Yaml

/-- What a scalar means. -/
inductive Meaning where
  /-- Nothing. -/
  | nothing
  /-- A truth value. -/
  | flag (value : Bool)
  /-- An integer of 64 bits. -/
  | integer (value : Int)
  /-- A natural number of 64 bits that is no integer of 64 bits. -/
  | large
  /-- A double with the integer that it is cut to, if there is one. -/
  | double (whole : Option Int)
  /-- A date, with a time or without. -/
  | moment
  /-- A text. -/
  | text (content : Bytes)
  deriving DecidableEq, Repr

/-- The tag that asks for a meaning. -/
def Meaning.tag : Meaning → Bytes
  | .nothing => "!!null"
  | .flag _ => "!!bool"
  | .integer _ | .large => "!!int"
  | .double _ => "!!float"
  | .moment => "!!timestamp"
  | .text _ => "!!str"

/-! ## Numbers -/

/-- The integer part of a double; beyond 64 bits, the least integer of 64 bits. -/
def truncated? (value : Float) : Option Int :=
  match Binary64.shape value with
  | .undefined => none
  | .infinite negative => if negative then some (-Numeral.int64Limit) else none
  | .finite negative mantissa exponent =>
      let magnitude : Int := mantissa * Nat.pow 2 exponent.toNat / Nat.pow 2 (-exponent).toNat
      if magnitude < Numeral.int64Limit then some (if negative then -magnitude else magnitude)
      else if negative || magnitude == Numeral.int64Limit then some (-Numeral.int64Limit)
      else none

/-- The value of digits in a base. -/
def digits? (base : Nat) (digits : Bytes) : Option Nat :=
  if digits.isEmpty then none
  else (digits.mapM (Numeral.digit? base)).map fun values =>
    values.foldl (fun value digit => value * base + digit) 0

/-- The value of digits whose base their beginning tells: `0x`, `0o` or `0`, `0b`. -/
def based? (digits : Bytes) : Option Nat :=
  match digits with
  | 0x30 :: mark :: rest =>
      if mark == 0x78 || mark == 0x58 then digits? 16 rest
      else if mark == 0x6F || mark == 0x4F then digits? 8 rest
      else if mark == 0x62 || mark == 0x42 then digits? 2 rest
      else digits? 8 (mark :: rest)
  | _ => digits? 10 digits

/-- A natural number without a sign, or an integer with one. -/
def integer? (text : Bytes) : Option Meaning :=
  let (negative, digits) := Numeral.takeSign text
  match based? digits with
  | none => none
  | some value =>
      let signed : Int := if negative then -(value : Int) else value
      if Numeral.isInt64 signed then some (.integer signed)
      else if digits.length == text.length && signed < 2 * Numeral.int64Limit then some .large
      else none

/-- Whether a text is a decimal number with an optional point and exponent. -/
def isDecimal (text : Bytes) : Bool :=
  let isDigit : UInt8 → Bool := fun byte => Rune.isDigit byte.toNat
  let unsigned := (Numeral.takeSign text).2
  let whole := unsigned.takeWhile isDigit
  let after := unsigned.dropWhile isDigit
  let (point, fraction, rest) :=
    match after with
    | 0x2E :: more => (true, more.takeWhile isDigit, more.dropWhile isDigit)
    | _ => (false, [], after)
  let mantissa := !whole.isEmpty || (point && !fraction.isEmpty)
  mantissa &&
    match rest with
    | [] => true
    | mark :: exponent =>
        (mark == 0x65 || mark == 0x45) && (Numeral.natural? (Numeral.takeSign exponent).2).isSome

/-- A double that a text spells. -/
def double? (text : Bytes) : Option Meaning :=
  (Numeral.double? text).map fun value => .double (truncated? value)

/-- An integer whose sign stands behind the mark of its base. -/
def markedInteger? (text : Bytes) : Option Meaning :=
  let (negative, digits) := Numeral.takeSign (text.drop 2)
  let base := if (Bytes.ofString "0b").isPrefixOf text then 2
    else if (Bytes.ofString "0o").isPrefixOf text then 8
    else 0
  match digits? base digits with
  | none => none
  | some value =>
      let signed : Int := if negative then -(value : Int) else value
      if Numeral.isInt64 signed then some (.integer signed) else none

/-- The number that a text without underscores spells. -/
def number? (text : Bytes) : Option Meaning :=
  (integer? text).or (((if isDecimal text then double? text else none)).or (markedInteger? text))

/-! ## Moments -/

/-- Whether a text is a date, alone or with a time; with a letter between them, a zone follows. -/
def isMoment (text : Bytes) : Bool :=
  match Moment.date? true text with
  | none => false
  | some [] => true
  | some (mark :: rest) =>
      if mark == 0x54 || mark == 0x74 then (Moment.clock? true rest >>= Moment.zone?) == some []
      else mark == 0x20 && Moment.clock? true (rest.dropWhile (· == 0x20)) == some []

/-! ## Words -/

/-- The spellings of nothing. -/
def nulls : List Bytes := ["", "~", "null", "Null", "NULL"]

/-- The words for truth. -/
def truths : List Bytes := ["true", "True", "TRUE"]

/-- The words for falsehood. -/
def falsehoods : List Bytes := ["false", "False", "FALSE"]

/-- The names of the undefined double. -/
def undefinedNames : List Bytes := [".nan", ".NaN", ".NAN"]

/-- The names of the infinities, without their signs. -/
def infinityNames : List Bytes := [".inf", ".Inf", ".INF"]

/-- The meaning of a word that is no number. -/
def word? (text : Bytes) : Option Meaning :=
  if nulls.contains text then some .nothing
  else if truths.contains text then some (.flag true)
  else if falsehoods.contains text then some (.flag false)
  else if undefinedNames.contains text then some (.double none)
  else if infinityNames.contains (Numeral.takeSign text).2 then
    some (.double (if text.head? == some 0x2D then some (-Numeral.int64Limit) else none))
  else none

/-- What the spelling of a text tells about its meaning.  Moments are looked for only if asked. -/
def Meaning.ofText (moments : Bool) (text : Bytes) : Meaning :=
  let isNumeric : UInt8 → Bool := fun byte =>
    Rune.isDigit byte.toNat || byte == 0x2B || byte == 0x2D
  let found :=
    match word? text with
    | some meaning => some meaning
    | none =>
        if text.head? == some 0x2E then double? text
        else if !text.head?.any isNumeric then none
        else if moments && isMoment text then some .moment
        else number? (text.filter (· != 0x5F))
  found.getD (.text text)

/-! ## Base 64 -/

/-- The value of a digit in base 64. -/
def sextet? (byte : UInt8) : Option Nat :=
  let code := byte.toNat
  if 0x41 ≤ code && code ≤ 0x5A then some (code - 0x41)
  else if 0x61 ≤ code && code ≤ 0x7A then some (code - 0x61 + 26)
  else if 0x30 ≤ code && code ≤ 0x39 then some (code - 0x30 + 52)
  else if code == 0x2B then some 62
  else if code == 0x2F then some 63
  else none

/-- The bytes that four digits spell, of which the last two may be filled up with equals signs. -/
def triplet? (first second third fourth : UInt8) : Option Bytes := do
  let high := (← sextet? first) * 64 + (← sextet? second)
  if third == 0x3D then
    if fourth == 0x3D then return [(high / 16).toUInt8] else none
  let middle := high * 64 + (← sextet? third)
  if fourth == 0x3D then return [(middle / 1024).toUInt8, (middle / 4 % 256).toUInt8]
  let all := middle * 64 + (← sextet? fourth)
  return [(all / 65536).toUInt8, (all / 256 % 256).toUInt8, (all % 256).toUInt8]

/-- The bytes that digits in base 64 spell.  Only the last four may be filled up. -/
def fromBase64? : Bytes → Option Bytes
  | [] => some []
  | first :: second :: third :: fourth :: rest =>
      if fourth == 0x3D && !rest.isEmpty then none
      else do
        let bytes ← triplet? first second third fourth
        return bytes ++ (← fromBase64? rest)
  | _ => none

/-- The bytes that a text spells in base 64, line ends left out. -/
def decoded? (text : Bytes) : Option Bytes :=
  fromBase64? (text.filter fun byte => byte != 0x0A && byte != 0x0D)

/-! ## Tags -/

/-- The meaning as a tag asks for it.  An integer may be asked for as a double. -/
def Meaning.as? (tag : Bytes) (meaning : Meaning) : Option Meaning :=
  if meaning.tag == tag then some meaning
  else
    match meaning with
    | .integer value =>
        if tag == Bytes.ofString "!!float" then
          (Binary64.ofRatio? (value < 0) value.natAbs 1).map fun double =>
            .double (truncated? double)
        else none
    | _ => none

/-- The tags that ask for a meaning which the spelling must have. -/
def askingTags : List Bytes := ["!!bool", "!!int", "!!float", "!!null", "!!timestamp"]

/-- The tag of a key under which other mappings are merged. -/
def mergeTag : Bytes := "!!merge"

/-- The key under which other mappings are merged. -/
def mergeKey : Bytes := "<<"

/-- Whether a scalar, as a key, asks to merge other mappings. -/
def Scalar.isMerge (scalar : Scalar) : Bool :=
  scalar.text == mergeKey && (scalar.tag == mergeTag || (scalar.tag.isEmpty && scalar.plain))

/-- What a scalar means; nothing if its tag asks for another meaning than its text has. -/
def Scalar.meaning? (scalar : Scalar) : Option Meaning :=
  if scalar.tag.isEmpty then
    some (if scalar.plain then .ofText true scalar.text else .text scalar.text)
  else if scalar.tag == Bytes.ofString "!!binary" then (decoded? scalar.text).map .text
  else if askingTags.contains scalar.tag then
    (Meaning.ofText (scalar.tag == Meaning.moment.tag) scalar.text).as? scalar.tag
  else some (.text scalar.text)

end ScriptCompiler.Yaml
