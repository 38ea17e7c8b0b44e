import ScriptCompiler.Diagnostic
import ScriptCompiler.Text.Letter
import ScriptCompiler.Token.Kind

/-!
# The scanner

Tokens are read from the glyphs of a text.  Between tokens stand gaps of blanks and comments; block
comments nest.  At each point the longest token is taken.  A cursor is the rest of the text with the
place where it begins, and one step of the scanner takes a cursor to a token or a diagnostic and to
the next cursor.  A step that is not at the end of the text always moves on, also after a
diagnostic.
-/

namespace ScriptCompiler

/-- What is wrong with a text where no token can be read. -/
inductive LexicalFault where
  /-- A rune that begins no token. -/
  | unexpected (rune : Rune)
  /-- A block comment without an end. -/
  | unclosedComment
  /-- A string literal without an end on its line. -/
  | unclosedString
  deriving DecidableEq, Repr

/-- The text of a lexical fault. -/
def LexicalFault.message : LexicalFault → Bytes
  | .unexpected rune => "unexpected character " ++ Quoted.rune rune
  | .unclosedComment => "unterminated block comment"
  | .unclosedString => "unterminated string literal"

namespace Lexeme

/-- A rune that an identifier may begin with. -/
def isWordStart (rune : Rune) : Bool := Rune.isLetter rune || rune == 0x5F

/-- A rune that an identifier may go on with. -/
def isWordPart (rune : Rune) : Bool := isWordStart rune || Rune.isDigit rune

/-- The number of leading glyphs whose rune satisfies a predicate. -/
def count (holds : Rune → Bool) (glyphs : List Glyph) : Nat :=
  (glyphs.takeWhile fun glyph => holds glyph.rune).length

/-- The number of glyphs of a fraction: a point and digits, or nothing. -/
def fractionSize : List Glyph → Nat
  | point :: digits =>
      if point.rune == 0x2E && 0 < count Rune.isDigit digits then
        1 + count Rune.isDigit digits else 0
  | [] => 0

/-- The number of glyphs of a sign: one or none. -/
def signSize : List Glyph → Nat
  | sign :: _ => if sign.rune == 0x2B || sign.rune == 0x2D then 1 else 0
  | [] => 0

/-- The number of glyphs of an exponent: a mark, an optional sign and digits, or nothing. -/
def exponentSize : List Glyph → Nat
  | mark :: rest =>
      let digits := count Rune.isDigit (rest.drop (signSize rest))
      if (mark.rune == 0x65 || mark.rune == 0x45) && 0 < digits then 1 + signSize rest +
        digits else 0
  | [] => 0

/-- The rest of a string literal after its opening quote: whether it is closed, and the number of
glyphs up to its closing quote, or to the end of the line or text. -/
def stringBody : List Glyph → Bool × Nat
  | [] => (false, 0)
  | [glyph] =>
      if glyph.rune == 0x22 then (true, 1) else if glyph.rune == 0x0A then
        (false, 0) else (false, 1)
  | glyph :: next :: rest =>
      if glyph.rune == 0x22 then (true, 1)
      else if glyph.rune == 0x0A then (false, 0)
      else if glyph.rune == 0x5C then
        let body := stringBody rest
        (body.1, body.2 + 2)
      else
        let body := stringBody (next :: rest)
        (body.1, body.2 + 1)

/-- The kind of a mark of one rune. -/
def ofMark? (rune : Rune) : Option TokenKind :=
  match rune with
  | 0x28 => some .leftParen
  | 0x29 => some .rightParen
  | 0x7B => some .leftBrace
  | 0x7D => some .rightBrace
  | 0x2C => some .comma
  | 0x3B => some .semicolon
  | 0x3A => some .colon
  | 0x25 => some .percent
  | 0x2B => some .plus
  | 0x2D => some .minus
  | 0x2A => some .star
  | 0x2F => some .slash
  | 0x3D => some .assign
  | 0x21 => some .bang
  | 0x3C => some .less
  | 0x3E => some .greater
  | _ => none

/-- The kind of a mark of two runes. -/
def ofMarks? (first second : Rune) : Option TokenKind :=
  match first, second with
  | 0x2B, 0x3D => some .plusAssign
  | 0x2D, 0x3D => some .minusAssign
  | 0x2A, 0x3D => some .starAssign
  | 0x2F, 0x3D => some .slashAssign
  | 0x3D, 0x3D => some .equal
  | 0x21, 0x3D => some .notEqual
  | 0x3C, 0x3D => some .lessEqual
  | 0x3E, 0x3D => some .greaterEqual
  | 0x26, 0x26 => some .bothAnd
  | 0x7C, 0x7C => some .eitherOr
  | _, _ => none

/-- What is read at the beginning of a nonempty list of glyphs: a kind of token or a fault, and the
number of glyphs that belong to it. -/
def read (first : Glyph) (rest : List Glyph) : Except LexicalFault TokenKind × Nat :=
  if isWordStart first.rune then
    let size := 1 + count isWordPart rest
    (.ok (TokenKind.ofWord (Glyph.text ((first :: rest).take size))), size)
  else if Rune.isDigit first.rune then
    let whole := 1 + count Rune.isDigit rest
    let fraction := fractionSize ((first :: rest).drop whole)
    let exponent := exponentSize ((first :: rest).drop (whole + fraction))
    (.ok (if fraction + exponent == 0 then .int else .float), whole + fraction + exponent)
  else if first.rune == 0x22 then
    let body := stringBody rest
    (if body.1 then .ok .string else .error .unclosedString, 1 + body.2)
  else
    let pair? : Option TokenKind := rest.head?.bind fun second => ofMarks? first.rune second.rune
    match pair? with
    | some kind => (.ok kind, 2)
    | none =>
        match ofMark? first.rune with
        | some kind => (.ok kind, 1)
        | none => (.error (.unexpected first.rune), 1)

end Lexeme

namespace Gap

/-- Whether a rune is a blank between tokens. -/
def isBlank (rune : Rune) : Bool := rune == 0x20 || rune == 0x09 || rune == 0x0D || rune == 0x0A

/-- What a gap is in the middle of. -/
inductive State where
  /-- Between blanks and comments. -/
  | between
  /-- In a comment that ends with the line. -/
  | line
  /-- In a block comment that began `start` glyphs into the gap and has so many comments open
  inside it. -/
  | block (start inner : Nat)
  deriving DecidableEq, Repr

/-- The end of a gap: the number of glyphs it takes up, or the number of glyphs before a block
comment that is not closed. -/
inductive Ending where
  /-- The gap ends after so many glyphs. -/
  | closed (size : Nat)
  /-- A comment begins after so many glyphs and does not end. -/
  | unclosed (start : Nat)
  deriving DecidableEq, Repr

/-- Skips a gap; `size` glyphs of it are skipped already. -/
def skip : State → Nat → List Glyph → Ending
  | .between, size, [] => .closed size
  | .between, size, [glyph] => if isBlank glyph.rune then .closed (size + 1) else .closed size
  | .between, size, glyph :: next :: rest =>
      if isBlank glyph.rune then skip .between (size + 1) (next :: rest)
      else if glyph.rune == 0x2F && next.rune == 0x2F then skip .line (size + 2) rest
      else if glyph.rune == 0x2F && next.rune == 0x2A then skip (.block size 0) (size + 2) rest
      else .closed size
  | .line, size, [] => .closed size
  | .line, size, glyph :: rest =>
      if glyph.rune == 0x0A then skip .between (size + 1) rest else skip .line (size + 1) rest
  | .block start _, _, [] => .unclosed start
  | .block start _, _, [_] => .unclosed start
  | .block start inner, size, glyph :: next :: rest =>
      if glyph.rune == 0x2F && next.rune == 0x2A then
        skip (.block start (inner + 1)) (size + 2) rest
      else if glyph.rune == 0x2A && next.rune == 0x2F then
        match inner with
        | 0 => skip .between (size + 2) rest
        | outer + 1 => skip (.block start outer) (size + 2) rest
      else skip (.block start inner) (size + 1) (next :: rest)

end Gap

/-- The rest of a text and the place where it begins. -/
structure Cursor where
  /-- The glyphs not read yet. -/
  rest : List Glyph
  /-- The line, counted from one. -/
  line : Nat := 1
  /-- The column, counted from one in runes. -/
  column : Nat := 1
  /-- The number of bytes read. -/
  offset : Nat := 0
  deriving Repr

namespace Cursor

/-- The cursor at the beginning of a text. -/
def ofText (text : Bytes) : Cursor := { rest := Bytes.glyphs text }

/-- The cursor after one glyph. -/
def step (cursor : Cursor) : Cursor :=
  match cursor.rest with
  | [] => cursor
  | glyph :: rest =>
      if glyph.rune == 0x0A then ⟨rest, cursor.line + 1, 1, cursor.offset + glyph.bytes.length⟩
      else ⟨rest, cursor.line, cursor.column + 1, cursor.offset + glyph.bytes.length⟩

/-- The cursor after so many glyphs. -/
def advance : Nat → Cursor → Cursor
  | 0, cursor => cursor
  | size + 1, cursor => advance size cursor.step

/-- The position of a cursor in a file. -/
def position (cursor : Cursor) (file : Bytes) : Position :=
  ⟨file, cursor.line, cursor.column, cursor.offset⟩

end Cursor

/-- What a scan is about: the name of the file and what its diagnostics are attributed to. -/
structure ScanTarget where
  /-- The name of the file. -/
  file : Bytes
  /-- The origin of diagnostics. -/
  origin : Origin

namespace ScanTarget

/-- The diagnostic of a fault at a cursor. -/
def diagnostic (target : ScanTarget) (fault : LexicalFault) (cursor : Cursor) : Diagnostic :=
  { category := .illegalCharacter
    details := fault.message
    position := cursor.position target.file
    origin := target.origin }

/-- One step of the scanner: skips a gap and reads a token.  At the end of the text the token is of
the kind `eof` and has an empty lexeme. -/
def next (target : ScanTarget) (cursor : Cursor) : Except Diagnostic Token × Cursor :=
  match Gap.skip .between 0 cursor.rest with
  | .unclosed start =>
      (.error (target.diagnostic .unclosedComment (cursor.advance start)),
        cursor.advance cursor.rest.length)
  | .closed size =>
      let start := cursor.advance size
      match start.rest with
      | [] => (.ok ⟨.eof, [], start.position target.file⟩, start)
      | first :: rest =>
          match Lexeme.read first rest with
          | (.ok kind, taken) =>
              (.ok ⟨kind, Glyph.text (start.rest.take taken), start.position target.file⟩,
                start.advance taken)
          | (.error fault, taken) => (.error (target.diagnostic fault start), start.advance taken)

/-- All tokens from a cursor on, the last one being of the kind `eof`, or the first diagnostic; at
most `steps` steps are taken. -/
def tokensWithin (target : ScanTarget) : Nat → Cursor → Except Diagnostic (List Token)
  | 0, _ => .ok []
  | steps + 1, cursor =>
      match target.next cursor with
      | (.error diagnostic, _) => .error diagnostic
      | (.ok token, following) =>
          if token.kind == .eof then .ok [token]
          else (target.tokensWithin steps following).map (token :: ·)

/-- The tokens of a text, the last one being of the kind `eof`, or the first diagnostic.  There is
at most one token for each glyph. -/
def tokens (target : ScanTarget) (text : Bytes) : Except Diagnostic (List Token) :=
  let cursor := Cursor.ofText text
  target.tokensWithin (cursor.rest.length + 1) cursor

/-- The results of the first `count` steps, which go on after diagnostics. -/
def steps (target : ScanTarget) : Nat → Cursor → List (Except Diagnostic Token)
  | 0, _ => []
  | count + 1, cursor =>
      let result := target.next cursor
      result.1 :: target.steps count result.2

end ScanTarget

/-- Whether a text is one identifier and no reserved word. -/
def isIdentifier (text : Bytes) : Bool :=
  TokenKind.ofWord text == .identifier &&
    match Bytes.runes text with
    | [] => false
    | first :: others => Lexeme.isWordStart first && others.all Lexeme.isWordPart

end ScriptCompiler
