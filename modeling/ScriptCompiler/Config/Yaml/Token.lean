import ScriptCompiler.Config.Yaml.Scalar

/-!
# The tokens of a YAML stream

A stream becomes a list of tokens.  Blocks begin and end where the indentation does; the token of a
key whose colon follows it on the same line is put before the key when the colon is found.

A token can be used once the two tokens behind it are known and it is settled whether a key begins
with it.  So what cannot be read costs the tokens right before it, and leaves the earlier ones.
-/

namespace ScriptCompiler.Yaml

/-- A token. -/
inductive Token where
  /-- A directive that names the version. -/
  | version (major minor : Nat)
  /-- A directive that names the beginning of tags by a handle. -/
  | handle (name start : Bytes)
  /-- The mark before a document. -/
  | documentStart
  /-- The mark behind a document. -/
  | documentEnd
  /-- The end of the stream. -/
  | streamEnd
  /-- The indentation of a sequence begins. -/
  | blockSequence
  /-- The indentation of a mapping begins. -/
  | blockMapping
  /-- An indentation ends. -/
  | blockEnd
  /-- An opening bracket. -/
  | flowSequence
  /-- A closing bracket. -/
  | flowSequenceEnd
  /-- An opening brace. -/
  | flowMapping
  /-- A closing brace. -/
  | flowMappingEnd
  /-- The mark before an item of a sequence. -/
  | blockEntry
  /-- The comma between parts of a flow collection. -/
  | flowEntry
  /-- A key begins. -/
  | key
  /-- A value begins. -/
  | value
  /-- The name of a node that stands for it. -/
  | alias (name : Bytes)
  /-- The name that the following node is given. -/
  | anchor (name : Bytes)
  /-- The tag of the following node. -/
  | tag (handle suffix : Bytes)
  /-- A scalar, written without quotes and not as a block or otherwise. -/
  | scalar (plain : Bool) (text : Bytes)
  deriving DecidableEq, Repr

/-! ## Names, tags and directives -/

/-- The name behind the mark of an alias or an anchor. -/
def name? (cursor : Cursor) : Option (Bytes × Cursor) :=
  let name := cursor.rest.takeWhile isWord
  let behind := cursor.skip name.length
  let ends : Rune → Bool := fun rune =>
    isGap rune || rune == 0x3F || rune == 0x3A || rune == 0x2C || rune == 0x5D || rune == 0x7D ||
      rune == 0x25 || rune == 0x40 || rune == 0x60
  if name.isEmpty || !behind.rest.head?.all ends then none else some (encode name, behind)

/-- A rune that may stand in a tag as itself. -/
def isTagRune (rune : Rune) : Bool :=
  isWord rune || rune == 0x3B || rune == 0x2F || rune == 0x3F || rune == 0x3A || rune == 0x40 ||
    rune == 0x26 || rune == 0x3D || rune == 0x2B || rune == 0x24 || rune == 0x2C || rune == 0x2E ||
    rune == 0x21 || rune == 0x7E || rune == 0x2A || rune == 0x27 || rune == 0x28 || rune == 0x29 ||
    rune == 0x5B || rune == 0x5D

/-- The byte that a percent sign and two hexadecimal digits stand for. -/
def octet? (text : List Rune) : Option UInt8 :=
  match text with
  | mark :: first :: second :: _ =>
      if mark == 0x25 then (hexNumber? [first, second]).map Nat.toUInt8 else none
  | _ => none

/-- The number of bytes that spell a rune, by the first of them; zero if it cannot be the first. -/
def octetCount (lead : UInt8) : Nat :=
  if lead < 0x80 then 1
  else if lead < 0xC0 then 0
  else if lead < 0xE0 then 2
  else if lead < 0xF0 then 3
  else if lead < 0xF8 then 4
  else 0

/-- A number of bytes that go on with a rune. -/
def continuations? : Nat → Cursor → Option (Bytes × Cursor)
  | 0, cursor => some ([], cursor)
  | count + 1, cursor =>
      match octet? cursor.rest with
      | none => none
      | some octet =>
          if Glyph.isContinuation octet then
            (continuations? count (cursor.skip 3)).map fun (more, after) => (octet :: more, after)
          else none

/-- The bytes of a rune, each spelt with a percent sign. -/
def octets? (cursor : Cursor) : Option (Bytes × Cursor) :=
  match octet? cursor.rest with
  | none => none
  | some lead =>
      match octetCount lead with
      | 0 => none
      | count + 1 =>
          (continuations? count (cursor.skip 3)).map fun (more, after) => (lead :: more, after)

/-- The text of a tag. -/
def tagText? : Nat → Cursor → Option (Bytes × Cursor)
  | 0, _ => none
  | fuel + 1, cursor =>
      match cursor.rest with
      | [] => some ([], cursor)
      | rune :: _ =>
          if rune == 0x25 then do
            let (octets, behind) ← octets? cursor
            let (more, after) ← tagText? fuel behind
            return (octets ++ more, after)
          else if isTagRune rune then
            (tagText? fuel cursor.next).map fun (more, after) => (Rune.encode rune ++ more, after)
          else some ([], cursor)

/-- The text of a tag that is not empty. -/
def tagSuffix? (cursor : Cursor) : Option (Bytes × Cursor) :=
  (tagText? (cursor.rest.length + 1) cursor).filter fun (text, _) => !text.isEmpty

/-- The runes of a handle: an exclamation mark, a word and another mark, if it is there. -/
def handleRunes (text : List Rune) : List Rune :=
  let word := (text.drop 1).takeWhile isWord
  text.take 1 ++ word ++ ((text.drop (1 + word.length)).take 1).filter (· == 0x21)

/-- Whether a text is a handle and not only the beginning of a tag. -/
def isHandle (text : List Rune) : Bool := 1 < text.length && text.getLast? == some 0x21

/-- A tag, which begins with an exclamation mark. -/
def tag? (cursor : Cursor) : Option (Token × Cursor) := do
  let handle := handleRunes cursor.rest
  let behind := cursor.skip handle.length
  let (token, after) ←
    if (cursor.rest.drop 1).head? == some 0x3C then do
      let (suffix, close) ← tagSuffix? (cursor.skip 2)
      if close.isAt 0x3E then pure (Token.tag [] suffix, close.next) else none
    else if isHandle handle then do
      let (suffix, after) ← tagSuffix? behind
      pure (Token.tag (encode handle) suffix, after)
    else do
      let (more, after) ← tagText? (behind.rest.length + 1) behind
      let suffix := encode (handle.drop 1) ++ more
      pure (if suffix.isEmpty then .tag [] "!" else .tag "!" suffix, after)
  if startsGap after.rest then return (token, after) else none

/-- A number of one or two digits. -/
def versionNumber? (cursor : Cursor) : Option (Nat × Cursor) :=
  let digits := cursor.rest.takeWhile Rune.isDigit
  if digits.isEmpty || 2 < digits.length then none
  else some (digits.foldl (fun value digit => value * 10 + (digit - 0x30)) 0,
    cursor.skip digits.length)

/-- What follows the name of a directive for the version. -/
def version? (cursor : Cursor) : Option (Token × Cursor) := do
  let (major, point) ← versionNumber? (cursor.skipWhile isBlank)
  if !point.isAt 0x2E then none
  let (minor, after) ← versionNumber? point.next
  return (.version major minor, after)

/-- What follows the name of a directive for tags. -/
def handle? (cursor : Cursor) : Option (Token × Cursor) := do
  let here := cursor.skipWhile isBlank
  let name := handleRunes here.rest
  let behind := here.skip name.length
  if name.head? != some 0x21 || !(isHandle name || name.length == 1) then none
  if !behind.rest.head?.any isBlank then none
  let (start, after) ← tagSuffix? (behind.skipWhile isBlank)
  if startsGap after.rest then return (.handle (encode name) start, after) else none

/-- A directive, whose mark has been taken, with the rest of its line. -/
def directive? (cursor : Cursor) : Option (Token × Cursor) := do
  let name := cursor.rest.takeWhile isWord
  let behind := cursor.skip name.length
  if !startsGap behind.rest then none
  let (token, after) ←
    if encode name == Bytes.ofString "YAML" then version? behind
    else if encode name == Bytes.ofString "TAG" then handle? behind
    else none
  let blank := after.skipWhile isBlank
  let lineEnd := if blank.isAt 0x23 then blank.skipLine else blank
  if lineEnd.rest.head?.all isBreak then return (token, lineEnd.next) else none

/-! ## Scanning -/

/-- A place where a key may have begun, which its colon will tell. -/
structure Candidate where
  /-- The number of tokens before it. -/
  place : Nat
  /-- Its line. -/
  line : Nat
  /-- Its column. -/
  column : Nat
  /-- Whether nothing but a key can stand there. -/
  required : Bool
  deriving DecidableEq, Repr

/-- How many runes the colon of a key may be away from its beginning. -/
def keyReach : Nat := 1024

/-- Whether a colon at a place would still make a candidate a key. -/
def Candidate.isOpen (candidate : Candidate) (cursor : Cursor) : Bool :=
  candidate.line == cursor.line && cursor.column ≤ candidate.column + keyReach

/-- A stream that has been read up to a place. -/
structure Scanner where
  /-- The place. -/
  cursor : Cursor
  /-- The tokens before it. -/
  tokens : Array Token := #[]
  /-- The columns of the blocks around it, the innermost first. -/
  indents : List Nat := []
  /-- The candidate of the innermost collection. -/
  candidate : Option Candidate := none
  /-- The candidates around each flow collection, the innermost first. -/
  outer : List (Option Candidate) := []
  /-- Whether a key may begin here. -/
  keyAllowed : Bool := true

namespace Scanner

/-- Whether the place is in a flow collection. -/
def inFlow (scanner : Scanner) : Bool := !scanner.outer.isEmpty

/-- A token behind the others. -/
def push (token : Token) (scanner : Scanner) : Scanner :=
  { scanner with tokens := scanner.tokens.push token }

/-- A token of one rune. -/
def pushMark (token : Token) (keyAllowed : Bool) (scanner : Scanner) : Scanner :=
  { scanner with
    cursor := scanner.cursor.next
    tokens := scanner.tokens.push token
    keyAllowed := keyAllowed }

/-- End all blocks but the given outermost ones; in a flow collection none ends. -/
def closeBlocks (staying : List Nat) (scanner : Scanner) : Scanner :=
  if scanner.inFlow then scanner
  else
    { scanner with
      indents := staying
      tokens :=
        scanner.tokens ++ Array.replicate (scanner.indents.length - staying.length) Token.blockEnd }

/-- Begin a block at a column, if it is further in than those around it, with its token at a place
among the others. -/
def openBlock (place column : Nat) (token : Token) (scanner : Scanner) : Scanner :=
  if scanner.inFlow || !scanner.indents.head?.all (· < column) then scanner
  else
    { scanner with
      indents := column :: scanner.indents
      tokens := scanner.tokens.insertIdxIfInBounds place token }

/-- Give up the candidate; one that is required cannot be. -/
def dropCandidate? (scanner : Scanner) : Option Scanner :=
  if scanner.candidate.any Candidate.required then none else some { scanner with candidate := none }

/-- Take the place as a candidate, if a key may begin here. -/
def addCandidate? (scanner : Scanner) : Option Scanner :=
  if scanner.keyAllowed then
    let required := !scanner.inFlow && scanner.indents.head? == some scanner.cursor.column
    let candidate : Candidate :=
      ⟨scanner.tokens.size, scanner.cursor.line, scanner.cursor.column, required⟩
    scanner.dropCandidate?.map fun ready => { ready with candidate := some candidate }
  else some scanner

/-- The beginning of a flow collection. -/
def openFlow? (token : Token) (scanner : Scanner) : Option Scanner :=
  scanner.addCandidate?.map fun ready =>
    { ready.pushMark token true with candidate := none, outer := ready.candidate :: ready.outer }

/-- The end of a flow collection. -/
def closeFlow? (token : Token) (scanner : Scanner) : Option Scanner :=
  scanner.dropCandidate?.map fun ready =>
    let closed :=
      match ready.outer with
      | [] => ready
      | candidate :: outer => { ready with candidate := candidate, outer := outer }
    closed.pushMark token false

/-- The mark before an item of a sequence. -/
def blockEntry? (scanner : Scanner) : Option Scanner :=
  if !scanner.inFlow && !scanner.keyAllowed then none
  else
    let opened := scanner.openBlock scanner.tokens.size scanner.cursor.column .blockSequence
    opened.dropCandidate?.map (pushMark .blockEntry true)

/-- The mark before a key. -/
def key? (scanner : Scanner) : Option Scanner :=
  if !scanner.inFlow && !scanner.keyAllowed then none
  else
    let opened := scanner.openBlock scanner.tokens.size scanner.cursor.column .blockMapping
    opened.dropCandidate?.map (pushMark .key !scanner.inFlow)

/-- The colon before a value whose key has a mark or is not there. -/
def markedValue? (scanner : Scanner) : Option Scanner :=
  if !scanner.inFlow && !scanner.keyAllowed then none
  else
    let opened := scanner.openBlock scanner.tokens.size scanner.cursor.column .blockMapping
    some (opened.pushMark .value !scanner.inFlow)

/-- The colon before a value.  A candidate that is still open becomes a key. -/
def value? (scanner : Scanner) : Option Scanner :=
  match scanner.candidate with
  | none => scanner.markedValue?
  | some candidate =>
      let settled := { scanner with candidate := none }
      if candidate.isOpen scanner.cursor then
        let keyed :=
          { settled with tokens := settled.tokens.insertIdxIfInBounds candidate.place .key }
        some ((keyed.openBlock candidate.place candidate.column .blockMapping).pushMark
          .value false)
      else if candidate.required then none
      else settled.markedValue?

/-- A token with which a key may begin, read from the place. -/
def content? (read : Cursor → Option (Token × Cursor)) (scanner : Scanner) : Option Scanner := do
  let ready ← scanner.addCandidate?
  let (token, after) ← read ready.cursor
  return { ready.push token with cursor := after, keyAllowed := false }

/-- A scalar in quotes. -/
def quoted? (quote : Rune) (scanner : Scanner) : Option Scanner :=
  scanner.content? fun cursor =>
    (Yaml.quoted? quote (cursor.rest.length + 1) cursor.next).map fun (text, after) =>
      (.scalar false (encode text), after)

/-- A scalar without quotes.  If lines end behind it, a key may follow. -/
def plain? (scanner : Scanner) : Option Scanner :=
  let indent := match scanner.indents with
    | [] => 0
    | column :: _ => column + 1
  let read := scanner.content? fun cursor =>
    (Yaml.plain? scanner.inFlow indent (cursor.rest.length + 1) cursor).map fun (text, after) =>
      (.scalar true (encode text), after)
  read.map fun ready => { ready with keyAllowed := ready.cursor.fresh }

/-- A scalar in a block. -/
def block? (literal : Bool) (scanner : Scanner) : Option Scanner := do
  let ready ← scanner.dropCandidate?
  let (text, after) ← Yaml.block? literal ready.indents.head? ready.cursor.next
  return { ready.push (.scalar false (encode text)) with cursor := after, keyAllowed := true }

/-- What is read at the beginning of a line and ends all blocks. -/
def outermost? (read : Cursor → Option (Token × Cursor)) (scanner : Scanner) : Option Scanner := do
  let ready ← (scanner.closeBlocks []).dropCandidate?
  let (token, after) ← read ready.cursor
  return { ready.push token with cursor := after, keyAllowed := false }

/-- The end of the stream. -/
def streamEnd? (scanner : Scanner) : Option Scanner :=
  scanner.outermost? fun cursor => some (.streamEnd, { cursor with column := 0 })

/-- A rune with a meaning of its own, which cannot begin a scalar without quotes. -/
def isIndicator (rune : Rune) : Bool :=
  endsFlowScalar rune || rune == 0x2D || rune == 0x3A || rune == 0x23 || rune == 0x26 ||
    rune == 0x2A || rune == 0x21 || rune == 0x7C || rune == 0x3E || rune == 0x27 || rune == 0x22 ||
    rune == 0x25 || rune == 0x40 || rune == 0x60

/-- Whether a scalar without quotes may begin with a rune before a text. -/
def startsPlain (flow : Bool) (rune : Rune) (rest : List Rune) : Bool :=
  (!isGap rune && !isIndicator rune) || (rune == 0x2D && !rest.head?.any isBlank) ||
    (!flow && (rune == 0x3F || rune == 0x3A) && !startsGap rest)

/-- The token that begins with a rune before a text. -/
def token? (rune : Rune) (rest : List Rune) (scanner : Scanner) : Option Scanner :=
  let flow := scanner.inFlow
  if rune == 0x5B then scanner.openFlow? .flowSequence
  else if rune == 0x7B then scanner.openFlow? .flowMapping
  else if rune == 0x5D then scanner.closeFlow? .flowSequenceEnd
  else if rune == 0x7D then scanner.closeFlow? .flowMappingEnd
  else if rune == 0x2C then scanner.dropCandidate?.map (pushMark .flowEntry true)
  else if rune == 0x2D && startsGap rest then scanner.blockEntry?
  else if rune == 0x3F && (flow || startsGap rest) then scanner.key?
  else if rune == 0x3A && (flow || startsGap rest) then scanner.value?
  else if rune == 0x2A then
    scanner.content? fun cursor => (name? cursor.next).map fun (name, after) => (.alias name, after)
  else if rune == 0x26 then
    scanner.content? fun cursor => (name? cursor.next).map fun (name, after) =>
      (.anchor name, after)
  else if rune == 0x21 then scanner.content? tag?
  else if rune == 0x7C && !flow then scanner.block? true
  else if rune == 0x3E && !flow then scanner.block? false
  else if rune == 0x27 || rune == 0x22 then scanner.quoted? rune
  else if startsPlain flow rune rest then scanner.plain?
  else none

/-- Skip a comment on the line of the last token, unless this is the mark before an item. -/
def skipLineComment (scanner : Scanner) : Scanner :=
  if scanner.tokens.back? == some .blockEntry then scanner
  else { scanner with cursor := scanner.cursor.skipLineComment }

/-- Read the next token, together with the ends of blocks before it. -/
def next? (scanner : Scanner) : Option Scanner :=
  let (keyAllowed, cursor) :=
    scanner.cursor.toContent scanner.inFlow (scanner.cursor.rest.length + 1) scanner.keyAllowed
  let moved := { scanner with cursor := cursor, keyAllowed := keyAllowed }
  let here := moved.closeBlocks (moved.indents.dropWhile (cursor.column < ·))
  match cursor.rest with
  | [] => here.streamEnd?
  | rune :: rest =>
      if cursor.column == 0 && rune == 0x25 then
        here.outermost? fun cursor => directive? cursor.next
      else if cursor.atMarkOf 0x2D then
        here.outermost? fun cursor => some (.documentStart, cursor.skip 3)
      else if cursor.atMarkOf 0x2E then
        here.outermost? fun cursor => some (.documentEnd, cursor.skip 3)
      else (here.token? rune rest).map skipLineComment

/-- The tokens that can be used if nothing behind the place can be read: those with two tokens
behind them before the first that may turn out to begin a key. -/
def usable (scanner : Scanner) : List Token :=
  let unsettled := (scanner.candidate :: scanner.outer).filterMap fun candidate =>
    candidate.bind fun found =>
      if found.required || found.isOpen scanner.cursor then some found.place else none
  (scanner.tokens.take (unsettled.foldl min (scanner.tokens.size - 2))).toList

/-- The usable tokens of the rest of a stream. -/
def run : Nat → Scanner → List Token
  | 0, scanner => scanner.usable
  | fuel + 1, scanner =>
      match scanner.next? with
      | none => scanner.usable
      | some more =>
          if more.tokens.back? == some .streamEnd then more.tokens.toList else more.run fuel

end Scanner

/-- The usable tokens of a text.  The last one is the end of the stream if all of it can be read. -/
def tokens (text : List Rune) : List Token :=
  Scanner.run (text.length + 2) { cursor := Cursor.start text }

end ScriptCompiler.Yaml
