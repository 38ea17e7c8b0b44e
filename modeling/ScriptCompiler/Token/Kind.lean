import ScriptCompiler.Source.Position
import ScriptCompiler.Text.Quoted

/-!
# Tokens

The kinds of tokens of the script language, their names and classes, and tokens as lexemes with a
position.
-/

namespace ScriptCompiler

/-- The kind of a token. -/
inductive TokenKind where
  | eof
  | int
  | float
  | string
  | identifier
  | funcKeyword
  | varKeyword
  | ifKeyword
  | elseKeyword
  | whileKeyword
  | forKeyword
  | returnKeyword
  | breakKeyword
  | continueKeyword
  | trueKeyword
  | falseKeyword
  | plus
  | minus
  | star
  | slash
  | percent
  | equal
  | notEqual
  | less
  | lessEqual
  | greater
  | greaterEqual
  | bothAnd
  | eitherOr
  | bang
  | assign
  | plusAssign
  | minusAssign
  | starAssign
  | slashAssign
  | leftParen
  | rightParen
  | leftBrace
  | rightBrace
  | comma
  | semicolon
  | colon
  /-- A number without a kind. -/
  | unlisted (code : Int)
  deriving DecidableEq, Repr, Inhabited

namespace TokenKind

/-- The named kinds in the order of their numbers. -/
def all : List TokenKind :=
  [.eof, .int, .float, .string, .identifier, .funcKeyword, .varKeyword, .ifKeyword, .elseKeyword,
    .whileKeyword, .forKeyword, .returnKeyword, .breakKeyword, .continueKeyword, .trueKeyword,
    .falseKeyword, .plus, .minus, .star, .slash, .percent, .equal, .notEqual, .less, .lessEqual,
    .greater, .greaterEqual, .bothAnd, .eitherOr, .bang, .assign, .plusAssign, .minusAssign,
    .starAssign, .slashAssign, .leftParen, .rightParen, .leftBrace, .rightBrace, .comma, .semicolon,
    .colon]

/-- The spelling of a keyword or operator, the class in capitals of any other kind, and the number
itself where there is no kind. -/
def name : TokenKind → String
  | .eof => "EOF"
  | .int => "INT"
  | .float => "FLOAT"
  | .string => "STRING"
  | .identifier => "IDENTIFIER"
  | .funcKeyword => "func"
  | .varKeyword => "var"
  | .ifKeyword => "if"
  | .elseKeyword => "else"
  | .whileKeyword => "while"
  | .forKeyword => "for"
  | .returnKeyword => "return"
  | .breakKeyword => "break"
  | .continueKeyword => "continue"
  | .trueKeyword => "true"
  | .falseKeyword => "false"
  | .plus => "+"
  | .minus => "-"
  | .star => "*"
  | .slash => "/"
  | .percent => "%"
  | .equal => "=="
  | .notEqual => "!="
  | .less => "<"
  | .lessEqual => "<="
  | .greater => ">"
  | .greaterEqual => ">="
  | .bothAnd => "&&"
  | .eitherOr => "||"
  | .bang => "!"
  | .assign => "="
  | .plusAssign => "+="
  | .minusAssign => "-="
  | .starAssign => "*="
  | .slashAssign => "/="
  | .leftParen => "("
  | .rightParen => ")"
  | .leftBrace => "\x7b"
  | .rightBrace => "\x7d"
  | .comma => ","
  | .semicolon => ";"
  | .colon => ":"
  | .unlisted code => "TokenType(" ++ toString code ++ ")"

/-- The number of a kind. -/
def code : TokenKind → Int
  | .unlisted code => code
  | kind => (all.idxOf kind : Nat)

/-- The named kind with a number. -/
def ofCode? (code : Int) : Option TokenKind := if code < 0 then none else all[code.toNat]?

/-- The kind with a number. -/
def ofCode (code : Int) : TokenKind := (ofCode? code).getD (.unlisted code)

/-- The kind with a name. -/
def ofName? (name : String) : Option TokenKind := all.find? fun kind => kind.name == name

/-- The name of the kind with a number. -/
def nameOfCode (code : Int) : Bytes := (ofCode code).name

/-- The reserved words. -/
def keywords : List TokenKind :=
  [.funcKeyword, .varKeyword, .ifKeyword, .elseKeyword, .whileKeyword, .forKeyword, .returnKeyword,
    .breakKeyword, .continueKeyword, .trueKeyword, .falseKeyword]

/-- Whether the kind is a reserved word. -/
def isKeyword (kind : TokenKind) : Bool := keywords.contains kind

/-- Whether the kind is a literal value. -/
def isLiteral : TokenKind → Bool
  | .int | .float | .string | .trueKeyword | .falseKeyword => true
  | _ => false

/-- Whether the kind is an assignment operator. -/
def isAssignment : TokenKind → Bool
  | .assign | .plusAssign | .minusAssign | .starAssign | .slashAssign => true
  | _ => false

/-- The kind of a word: a reserved word or an identifier. -/
def ofWord (word : Bytes) : TokenKind :=
  (keywords.find? fun kind => Bytes.ofString kind.name == word).getD .identifier

end TokenKind

/-- A lexical unit. -/
structure Token where
  /-- The kind of the token. -/
  kind : TokenKind
  /-- The exact source text; a string literal keeps its quotes and escapes. -/
  lexeme : Bytes
  /-- Where the token begins. -/
  position : Position
  deriving DecidableEq, Repr, Inhabited

namespace Token

/-- The number of bytes of the lexeme. -/
def length (token : Token) : Nat := token.lexeme.length

/-- The position of the last rune and the last byte of a token, taken to lie on one line. -/
def last (token : Token) : Position :=
  if token.length == 0 then token.position
  else
    { token.position with
      column := token.position.column + (Bytes.runeCount token.lexeme - 1 : Int)
      offset := token.position.offset + (token.length - 1 : Int) }

/-- The position right behind a token, taken to lie on one line. -/
def next (token : Token) : Position :=
  { token.position with
    column := token.position.column + Bytes.runeCount token.lexeme
    offset := token.position.offset + token.length }

/-- The token on one line: place, kind and quoted lexeme. -/
def text (token : Token) : Bytes :=
  Bytes.ofInt token.position.line ++ ":" ++ Bytes.ofInt token.position.column ++ " " ++
    token.kind.name ++ " " ++ Quoted.text token.lexeme

/-- One line for each token. -/
def dump (tokens : List Token) : Bytes := tokens.flatMap fun token => token.text ++ "\n"

end Token

end ScriptCompiler
