import ScriptCompiler.Number.Numeral
import ScriptCompiler.Text.Blank
import ScriptCompiler.Text.Quoted

/-!
# The log

What the compiler tells about its own work: records with a severity, a message and named values.  A
record is written on one line when its severity reaches a threshold.
-/

namespace ScriptCompiler

/-- How much a log record matters. -/
inductive Severity where
  /-- Of use when the compiler itself is looked into. -/
  | debug
  /-- Progress. -/
  | info
  /-- Something that is probably a mistake. -/
  | warn
  /-- A failure. -/
  | error
  deriving DecidableEq, Repr

namespace Severity

/-- The severities in order. -/
def all : List Severity := [.debug, .info, .warn, .error]

/-- The name of a severity. -/
def name : Severity → Bytes
  | .debug => "DEBUG"
  | .info => "INFO"
  | .warn => "WARN"
  | .error => "ERROR"

/-- The number of a severity; the numbers between serve as thresholds. -/
def level : Severity → Int
  | .debug => -4
  | .info => 0
  | .warn => 4
  | .error => 8

/-- A text in capitals, as far as the letters of the names go: beside the small letters of ASCII,
the dotless i has a capital among them. -/
def capitals : Bytes → Bytes
  | 0xC4 :: 0xB1 :: rest => 0x49 :: capitals rest
  | byte :: rest => (if 0x61 ≤ byte && byte ≤ 0x7A then byte - 0x20 else byte) :: capitals rest
  | [] => []

/-- The severity with a name in letters of any case. -/
def ofName? (name : Bytes) : Option Severity :=
  all.find? fun severity => severity.name == capitals name

/-- The number that a text adds to a level: a sign and digits that fit in 64 bits. -/
def offset? (text : Bytes) : Option Int :=
  (Numeral.integer? text).filter Numeral.isInt64

/-- The threshold that a text names: a severity, perhaps with an offset.  Any other text stands for
progress. -/
def threshold (text : Bytes) : Int :=
  let isSign : UInt8 → Bool := fun byte => byte == 0x2B || byte == 0x2D
  let word := text.takeWhile fun byte => !isSign byte
  let rest := text.dropWhile fun byte => !isSign byte
  match ofName? word, if rest.isEmpty then some 0 else offset? rest with
  | some severity, some offset => (severity.level + offset).bmod 18446744073709551616
  | _, _ => Severity.info.level

end Severity

/-- A record of the log. -/
structure LogRecord where
  /-- How much it matters. -/
  severity : Severity
  /-- What happened. -/
  message : Bytes
  /-- Named values, in order. -/
  fields : List (Bytes × Bytes)
  deriving DecidableEq, Repr

namespace LogRecord

/-- Whether a rune keeps a value from being written as it stands. -/
def isDelicate (rune : Rune) : Bool :=
  if rune < 0x80 then rune ≤ 0x20 || rune == 0x22 || rune == 0x3D
  else rune == Rune.replacement || Rune.isBlank rune || !Rune.isPrintable rune

/-- A value as written: in quotation marks when it is empty or holds a delicate rune. -/
def valueText (value : Bytes) : Bytes :=
  if value.isEmpty || (Bytes.runes value).any isDelicate then Quoted.text value else value

/-- The record on one line, without the end of the line. -/
def line (record : LogRecord) : Bytes :=
  let field : Bytes × Bytes → Bytes := fun (name, value) => " " ++ name ++ "=" ++ valueText value
  "level=" ++ record.severity.name ++ " msg=" ++ valueText record.message ++
    record.fields.flatMap field

/-- Whether the record reaches a threshold. -/
def reaches (record : LogRecord) (threshold : Int) : Bool := threshold ≤ record.severity.level

end LogRecord

end ScriptCompiler
