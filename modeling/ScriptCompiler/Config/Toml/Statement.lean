import ScriptCompiler.Config.Moment

/-!
# The statements of a TOML document

A document is a list of statements: headers of tables, headers of tables in a list, and keys with
their values.  Whether the statements agree with each other is not decided here.
-/

namespace ScriptCompiler.Toml

/-- A key: its parts, in order. -/
abbrev Key := List Bytes

/-- A value. -/
inductive Value where
  /-- A text. -/
  | string (text : Bytes)
  /-- An integer. -/
  | integer (value : Int)
  /-- A number with a fraction or an exponent. -/
  | float
  /-- A truth value. -/
  | boolean (value : Bool)
  /-- A date, a time or both. -/
  | moment
  /-- A list of values. -/
  | array (items : List Value)
  /-- A table on one line. -/
  | table (entries : List (Key × Value))
  deriving Repr

/-- A statement. -/
inductive Statement where
  /-- The header of a table. -/
  | header (key : Key)
  /-- The header of a table in a list. -/
  | listHeader (key : Key)
  /-- A key with its value. -/
  | assignment (key : Key) (value : Value)
  deriving Repr

/-! ## Reading -/

/-- A step of reading: it takes text from the front, or refuses it. -/
abbrev Read := StateT Bytes Option

/-- The next byte, which stays where it is. -/
def peek : Read (Option UInt8) := do
  return (← get).head?

/-- Refuse the text. -/
def refuse {α : Type} : Read α := StateT.lift none

/-- Take the bytes at the front that satisfy a test. -/
def takeWhile (test : UInt8 → Bool) : Read Bytes := do
  let text ← get
  set (text.dropWhile test)
  return text.takeWhile test

/-- Take a text if it stands at the front. -/
def accept (start : Bytes) : Read Bool := do
  let text ← get
  if start.isPrefixOf text then
    set (text.drop start.length)
    return true
  else return false

/-- Take a text, which must stand at the front. -/
def expect (start : Bytes) : Read Unit := do
  if !(← accept start) then refuse

/-- Take the next byte. -/
def next : Read UInt8 := do
  match ← get with
  | [] => refuse
  | byte :: rest =>
      set rest
      return byte

/-- A blank within a line. -/
def isBlank (byte : UInt8) : Bool := byte == 0x20 || byte == 0x09

/-- A byte of a line end. -/
def isLineEnd (byte : UInt8) : Bool := byte == 0x0A || byte == 0x0D

/-- Skip blanks within a line. -/
def skipBlanks : Read Unit := do
  let _ ← takeWhile isBlank

/-- Skip a comment up to the end of its line. -/
def skipComment : Read Unit := do
  if ← accept "#" then
    let _ ← takeWhile fun byte => !isLineEnd byte

/-- Take the end of a line, if it is there. -/
def acceptNewline : Read Bool := do
  if ← accept "\n" then return true else accept "\r\n"

/-- Skip blanks, comments and ends of lines. -/
def skipLines : Nat → Read Unit
  | 0 => return
  | fuel + 1 => do
      skipBlanks
      skipComment
      if ← acceptNewline then skipLines fuel

/-! ## Strings -/

/-- The rune that hexadecimal digits denote. -/
def hexRune (count : Nat) : Read Bytes := do
  let text ← get
  let digits := text.take count
  set (text.drop count)
  match digits.mapM (Numeral.digit? 16) with
  | none => refuse
  | some values =>
      let rune := values.foldl (fun value digit => value * 16 + digit) 0
      if values.length != count || !Rune.isScalar rune then refuse
      return Rune.encode rune

/-- What follows a backslash in a basic string. -/
def escape : Read Bytes := do
  match ← next with
  | 0x62 => return [0x08]
  | 0x74 => return [0x09]
  | 0x6E => return [0x0A]
  | 0x66 => return [0x0C]
  | 0x72 => return [0x0D]
  | 0x22 => return [0x22]
  | 0x5C => return [0x5C]
  | 0x75 => hexRune 4
  | 0x55 => hexRune 8
  | _ => refuse

/-- The rest of a string on one line, up to its quote. -/
def lineString (quote : UInt8) : Nat → Read Bytes
  | 0 => refuse
  | fuel + 1 => do
      let byte ← next
      if byte == quote then return []
      else if isLineEnd byte then refuse
      else if byte == 0x5C && quote == 0x22 then
        let first ← escape
        return first ++ (← lineString quote fuel)
      else return byte :: (← lineString quote fuel)

/-- The rest of a string of several lines, up to three quotes; one or two more belong to it.  A
backslash at the end of a line takes away all blanks and line ends behind it. -/
def longString (quote : UInt8) : Nat → Read Bytes
  | 0 => refuse
  | fuel + 1 => do
      if ← accept (Bytes.filled 3 quote) then
        if ← accept (Bytes.filled 2 quote) then return Bytes.filled 2 quote
        else if ← accept [quote] then return [quote]
        else return []
      else
        let byte ← next
        if byte == 0x5C && quote == 0x22 then
          let rest ← get
          if (rest.dropWhile isBlank).head?.any isLineEnd then
            let _ ← takeWhile fun byte => isBlank byte || isLineEnd byte
            longString quote fuel
          else
            let first ← escape
            return first ++ (← longString quote fuel)
        else return byte :: (← longString quote fuel)

/-- A string; its opening quotes have not been taken yet. -/
def string (quote : UInt8) (fuel : Nat) : Read Bytes := do
  if ← accept (Bytes.filled 3 quote) then
    let _ ← acceptNewline
    longString quote fuel
  else
    expect [quote]
    lineString quote fuel

/-! ## Keys -/

/-- A byte of a key without quotes. -/
def isKeyByte (byte : UInt8) : Bool :=
  (0x30 ≤ byte && byte ≤ 0x39) || (0x41 ≤ byte && byte ≤ 0x5A) || (0x61 ≤ byte && byte ≤ 0x7A) ||
    byte == 0x5F || byte == 0x2D

/-- One part of a key. -/
def keyPart (fuel : Nat) : Read Bytes := do
  match ← peek with
  | some 0x22 => do
      expect "\""
      lineString 0x22 fuel
  | some 0x27 => do
      expect "'"
      lineString 0x27 fuel
  | _ => do
      let part ← takeWhile isKeyByte
      if part.isEmpty then refuse
      return part

/-- A key: parts with dots between them, and blanks around these. -/
def key : Nat → Read Key
  | 0 => refuse
  | fuel + 1 => do
      skipBlanks
      let part ← keyPart fuel
      skipBlanks
      if ← accept "." then return part :: (← key fuel) else return [part]

/-! ## Numbers and moments -/

/-- Digits with underscores between digits only. -/
def isGrouped (base : Nat) (digits : Bytes) : Bool :=
  let parts := Bytes.splitOn 0x5F digits
  parts.all fun part => !part.isEmpty && part.all fun byte => (Numeral.digit? base byte).isSome

/-- The value of grouped digits. -/
def groupedValue (base : Nat) (digits : Bytes) : Nat :=
  (digits.filterMap (Numeral.digit? base)).foldl (fun value digit => value * base + digit) 0

/-- An integer that fits in 64 bits. -/
def int64 (value : Int) : Option Value :=
  if Numeral.isInt64 value then some (.integer value) else none

/-- Whether decimal digits begin with a zero that is not all of them. -/
def hasLeadingZero (digits : Bytes) : Bool := digits.head? == some 0x30 && 1 < digits.length

/-- A number with a fraction or an exponent, without its sign, that is not beyond the doubles. -/
def isFloat (text : Bytes) : Bool :=
  let isExponent : UInt8 → Bool := fun byte => byte == 0x65 || byte == 0x45
  let mantissa := text.takeWhile (!isExponent ·)
  let exponent := text.dropWhile (!isExponent ·)
  let whole := mantissa.takeWhile (· != 0x2E)
  let fraction := mantissa.dropWhile (· != 0x2E)
  isGrouped 10 whole && !hasLeadingZero whole &&
    (fraction.isEmpty || isGrouped 10 (fraction.drop 1)) &&
    (exponent.isEmpty || isGrouped 10 (Numeral.takeSign (exponent.drop 1)).2) &&
    !(fraction.isEmpty && exponent.isEmpty) && (Numeral.double? (text.filter (· != 0x5F))).isSome

/-- A date, a time, or both with a mark between them; only both together may have a zone. -/
def isMoment (text : Bytes) : Bool :=
  let isEnd : Bytes → Bool := List.isEmpty
  match Moment.date? false text with
  | none => (Moment.clock? false text).any isEnd
  | some [] => true
  | some (mark :: rest) =>
      (mark == 0x54 || mark == 0x74 || mark == 0x20) &&
        match Moment.clock? false rest with
        | none => false
        | some zone => zone.isEmpty || zone == [0x7A] || (Moment.zone? zone).any isEnd

/-- The number, date or time that a word spells. -/
def number? (word : Bytes) : Option Value :=
  let (negative, digits) := Numeral.takeSign word
  let signed := digits.length != word.length
  let based (base : Nat) : Option Value :=
    if !signed && isGrouped base (digits.drop 2) then
      int64 (groupedValue base (digits.drop 2)) else none
  if digits == Bytes.ofString "inf" || digits == Bytes.ofString "nan" then some .float
  else if (Bytes.ofString "0x").isPrefixOf digits then based 16
  else if (Bytes.ofString "0o").isPrefixOf digits then based 8
  else if (Bytes.ofString "0b").isPrefixOf digits then based 2
  else if isGrouped 10 digits then
    if hasLeadingZero digits then none
    else int64 (if negative then -(groupedValue 10 digits : Int) else groupedValue 10 digits)
  else if isFloat digits then some .float
  else if !signed && isMoment word then some .moment
  else none

/-- A byte of a number, date or time. -/
def isNumberByte (byte : UInt8) : Bool :=
  isKeyByte byte || byte == 0x2B || byte == 0x2E || byte == 0x3A

/-- A number, date or time.  A blank may stand between a date and a time. -/
def numberValue : Read Value := do
  let word ← takeWhile isNumberByte
  let rest ← get
  let joined :=
    match rest with
    | 0x20 :: digit :: _ => Moment.date? false word == some [] && Rune.isDigit digit.toNat
    | _ => false
  let whole ←
    if joined then do
      let _ ← next
      pure (word ++ [0x20] ++ (← takeWhile isNumberByte))
    else pure word
  match number? whole with
  | some value => return value
  | none => refuse

/-! ## Values -/

mutual

/-- A value. -/
def value : Nat → Read Value
  | 0 => refuse
  | fuel + 1 => do
      match ← peek with
      | some 0x22 => return .string (← string 0x22 fuel)
      | some 0x27 => return .string (← string 0x27 fuel)
      | some 0x5B => do
          expect "["
          return .array (← items fuel)
      | some 0x7B => do
          expect "\x7b"
          skipBlanks
          if ← accept "\x7d" then return .table [] else return .table (← entries fuel)
      | some 0x74 => do
          expect "true"
          return .boolean true
      | some 0x66 => do
          expect "false"
          return .boolean false
      | _ => numberValue

/-- The rest of a list of values. -/
def items : Nat → Read (List Value)
  | 0 => refuse
  | fuel + 1 => do
      skipLines fuel
      if ← accept "]" then return []
      else
        let item ← value fuel
        skipLines fuel
        if ← accept "," then return item :: (← items fuel)
        else
          expect "]"
          return [item]

/-- The rest of a table on one line that is not empty. -/
def entries : Nat → Read (List (Key × Value))
  | 0 => refuse
  | fuel + 1 => do
      let path ← key fuel
      expect "="
      skipBlanks
      let content ← value fuel
      skipBlanks
      if ← accept "," then return (path, content) :: (← entries fuel)
      else
        expect "\x7d"
        return [(path, content)]

end

/-! ## Documents -/

/-- The end of a line after a statement: a comment or nothing. -/
def endLine : Read Unit := do
  skipBlanks
  skipComment
  if !(← acceptNewline) && !(← get).isEmpty then refuse

/-- A statement. -/
def statement (fuel : Nat) : Read Statement := do
  if ← accept "[[" then
    let path ← key fuel
    expect "]]"
    endLine
    return .listHeader path
  else if ← accept "[" then
    let path ← key fuel
    expect "]"
    endLine
    return .header path
  else
    let path ← key fuel
    expect "="
    skipBlanks
    let content ← value fuel
    endLine
    return .assignment path content

/-- The statements of a document. -/
def statements : Nat → Read (List Statement)
  | 0 => refuse
  | fuel + 1 => do
      skipLines (← get).length
      if (← get).isEmpty then return []
      else
        let first ← statement fuel
        return first :: (← statements fuel)

/-- Whether a text holds control characters only in ends of lines and as tabs. -/
def isPlainText : Bytes → Bool
  | [] => true
  | 0x0D :: rest => rest.head? == some 0x0A && isPlainText rest
  | byte :: rest =>
      (byte == 0x09 || byte == 0x0A || (0x20 ≤ byte && byte != 0x7F)) && isPlainText rest

/-- The text without a byte order mark at its beginning. -/
def withoutMark (text : Bytes) : Bytes :=
  match text with
  | 0xFF :: 0xFE :: rest => rest
  | 0xFE :: 0xFF :: rest => rest
  | 0xEF :: 0xBB :: 0xBF :: rest => rest
  | _ => text

/-- The statements that a text holds. -/
def read (text : Bytes) : Option (List Statement) :=
  let content := withoutMark text
  if !Bytes.isWellFormed content || !isPlainText content then none
  else ((statements (content.length + 1)).run content).map Prod.fst

end ScriptCompiler.Toml
