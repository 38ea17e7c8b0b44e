import ScriptCompiler.Diagnostic
import ScriptCompiler.Number.Numeral
import ScriptCompiler.Syntax.Precedence
import ScriptCompiler.Syntax.Tree

/-!
# Reading syntax trees

A parser takes the tokens before the end of the input and returns a tree and the tokens left, or the
first error.  Statements are read by recursive descent, expressions by precedence.  An error is
raised at a token or at the end of the input; only at the end can more input help.  The recursive
parsers carry a bound on the depth of the recursion, which the number of tokens provides.
-/

namespace ScriptCompiler

/-- Why tokens do not fit the grammar. -/
inductive SyntaxFault where
  /-- Something else was expected in this place. -/
  | expected (what : Bytes)
  /-- A function has no body. -/
  | bodyExpected
  /-- A variable is declared with neither type nor initial value. -/
  | typeOrValueExpected (name : Bytes)
  /-- A function is declared inside a block. -/
  | nestedFunction
  /-- A jump stands outside of any loop. -/
  | outsideLoop (keyword : Bytes)
  /-- An integer literal is no 32-bit integer. -/
  | intOutOfRange (lexeme : Bytes)
  /-- A floating-point literal is no double. -/
  | floatInvalid (lexeme : Bytes)
  /-- What is assigned to is no name. -/
  | targetInvalid
  /-- What is called is no name. -/
  | calleeInvalid
  /-- The bound on the depth was too small. -/
  | tooDeep
  deriving DecidableEq, Repr

/-- A fault and the token it was found at; without a token it was found at the end of the input. -/
structure SyntaxError where
  /-- What is wrong. -/
  fault : SyntaxFault
  /-- The offending token. -/
  token : Option Token
  deriving DecidableEq, Repr

namespace SyntaxError

/-- How a token is named in a message. -/
def describe : Option Token → Bytes
  | none => "end of file"
  | some token =>
      match token.kind with
      | .identifier => "identifier '" ++ token.lexeme ++ "'"
      | .int | .float | .string => "literal " ++ token.lexeme
      | _ => "'" ++ token.lexeme ++ "'"

/-- The text of a syntax error. -/
def message (error : SyntaxError) : Bytes :=
  match error.fault with
  | .expected what => "expected " ++ what ++ ", got " ++ describe error.token
  | .bodyExpected => "expected '\x7b' before function body"
  | .typeOrValueExpected name => "expected type or initializer for variable '" ++ name ++ "'"
  | .nestedFunction => "function declarations are only allowed at top level"
  | .outsideLoop keyword => "'" ++ keyword ++ "' outside of a loop"
  | .intOutOfRange lexeme => "integer literal " ++ lexeme ++ " is out of range"
  | .floatInvalid lexeme => "invalid float literal " ++ lexeme
  | .targetInvalid => "invalid assignment target"
  | .calleeInvalid => "only named functions can be called"
  | .tooDeep => "the program is nested too deeply"

end SyntaxError

/-- The decoded contents of a string literal without its quotes: after a backslash the letters `n`,
`t` and `r` and the digit zero stand for control characters and every other byte for itself. -/
def unescape : Bytes → Bytes
  | [] => []
  | [byte] => [byte]
  | byte :: next :: rest =>
      if byte == 0x5C then
        (match next with
          | 0x6E => 0x0A
          | 0x74 => 0x09
          | 0x72 => 0x0D
          | 0x30 => 0x00
          | other => other) :: unescape rest
      else byte :: unescape (next :: rest)

/-- The contents of a string literal with its quotes. -/
def unquote (lexeme : Bytes) : Bytes :=
  if lexeme.length < 2 then [] else unescape (lexeme.drop 1).dropLast

/-- A parser: the tokens before the end of the input are its state. -/
abbrev Parser := StateT (List Token) (Except SyntaxError)

namespace Parser

/-- The kind of the next token; at the end of the input it is `eof`. -/
def peek : Parser TokenKind := fun tokens => .ok ((tokens.head?.map Token.kind).getD .eof, tokens)

/-- A fault at a given token. -/
def failAt {α : Type} (token : Option Token) (fault : SyntaxFault) : Parser α :=
  fun _ => .error ⟨fault, token⟩

/-- A fault at the next token. -/
def failHere {α : Type} (fault : SyntaxFault) : Parser α :=
  fun tokens => .error ⟨fault, tokens.head?⟩

/-- Takes the next token if it is of a kind, and fails otherwise. -/
def take (kind : TokenKind) (what : Bytes) : Parser Token
  | token :: rest =>
      if token.kind == kind then .ok (token, rest) else .error ⟨.expected what, some token⟩
  | [] => .error ⟨.expected what, none⟩

/-- Takes the next token if it is of a kind, and tells whether it did. -/
def skip (kind : TokenKind) : Parser Bool
  | token :: rest => if token.kind == kind then .ok (true, rest) else .ok (false, token :: rest)
  | [] => .ok (false, [])

/-- Takes an identifier. -/
def identifier (what : Bytes) : Parser Identifier := do
  let token ← take .identifier what
  return ⟨token⟩

/-- Reads the value of a literal token. -/
def literal (token : Token) : Except SyntaxError Expr :=
  match token.kind with
  | .int =>
      match Numeral.int32? token.lexeme with
      | some value => .ok (.literal token (.int value))
      | none => .error ⟨.intOutOfRange token.lexeme, some token⟩
  | .float =>
      match Numeral.double? token.lexeme with
      | some value => .ok (.literal token (.float value))
      | none => .error ⟨.floatInvalid token.lexeme, some token⟩
  | .string => .ok (.literal token (.string (unquote token.lexeme)))
  | kind => .ok (.literal token (.bool (kind == .trueKeyword)))

mutual

/-- An expression whose operators bind at least as tightly as a level. -/
def operandWithin : Nat → Precedence → Parser Expr
  | 0, _ => failHere .tooDeep
  | depth + 1, weakest => do
      let left ← primaryWithin depth
      operatorsWithin depth weakest left

/-- The operators that follow an operand and bind at least as tightly as a level. -/
def operatorsWithin : Nat → Precedence → Expr → Parser Expr
  | 0, _, _ => failHere .tooDeep
  | depth + 1, weakest, left => do
      if weakest.level ≤ (Precedence.ofOperator (← peek)).level then
        let larger ← operatorWithin depth left
        operatorsWithin depth weakest larger
      else return left

/-- An expression without an operator on its right. -/
def primaryWithin : Nat → Parser Expr
  | 0 => failHere .tooDeep
  | depth + 1 => fun tokens =>
      match tokens with
      | [] => .error ⟨.expected "expression", none⟩
      | token :: rest =>
          match token.kind with
          | .int | .float | .string | .trueKeyword | .falseKeyword =>
              (literal token).map fun expression => (expression, rest)
          | .identifier => .ok (.variable ⟨token⟩, rest)
          | .leftParen =>
              (do
                let inner ← operandWithin depth .assignment
                let closing ← take .rightParen "')' after expression"
                return .group token inner closing : Parser Expr) rest
          | .minus | .bang =>
              (do
                let operand ← operandWithin depth .unary
                return .unary token operand : Parser Expr) rest
          | _ => .error ⟨.expected "expression", some token⟩

/-- One operator after an operand, with what belongs to it. -/
def operatorWithin : Nat → Expr → Parser Expr
  | 0, _ => failHere .tooDeep
  | depth + 1, left => fun tokens =>
      match tokens with
      | [] => .ok (left, [])
      | operator :: rest =>
          if operator.kind.isAssignment then
            match left with
            | .variable target =>
                (do
                  let value ← operandWithin depth (Precedence.ofRightOperand operator.kind)
                  return .assignment target operator value : Parser Expr) rest
            | _ => .error ⟨.targetInvalid, some operator⟩
          else if operator.kind == .bothAnd || operator.kind == .eitherOr then
            (do
              let right ← operandWithin depth (Precedence.ofRightOperand operator.kind)
              return .logical left operator right : Parser Expr) rest
          else if operator.kind == .leftParen then
            match left with
            | .variable callee =>
                (do
                  let arguments ←
                    if (← peek) == .rightParen then pure [] else argumentsWithin depth
                  let closing ← take .rightParen "')' after arguments"
                  return .call callee arguments closing : Parser Expr) rest
            | _ => .error ⟨.calleeInvalid, some operator⟩
          else
            (do
              let right ← operandWithin depth (Precedence.ofRightOperand operator.kind)
              return .binary left operator right : Parser Expr) rest

/-- One or more arguments divided by commas. -/
def argumentsWithin : Nat → Parser (List Expr)
  | 0 => failHere .tooDeep
  | depth + 1 => do
      let argument ← operandWithin depth .assignment
      if ← skip .comma then
        let others ← argumentsWithin depth
        return argument :: others
      else return [argument]

end

/-- An expression. -/
def expression : Parser Expr :=
  fun tokens => operandWithin (4 * tokens.length + 4) .assignment tokens

/-- An expression, unless the next token is of a kind. -/
def expressionUnless (kind : TokenKind) : Parser (Option Expr) := do
  if (← peek) == kind then return none
  let value ← expression
  return some value

/-- An expression used as a statement. -/
def expressionStatement : Parser ExprStmt := do
  let value ← expression
  let semicolon ← take .semicolon "';' after expression"
  return ⟨value, semicolon⟩

/-- The type in a declaration of a variable, with or without a colon before it. -/
def declaredType : Parser (Option Identifier) := do
  if ← skip .colon then return some (← identifier "type name")
  if (← peek) == .identifier then return some (← identifier "type name")
  return none

/-- A declaration of a variable. -/
def variableDeclaration : Parser VarDecl := do
  let keyword ← take .varKeyword "'var'"
  let name ← identifier "variable name"
  let type ← declaredType
  let initial : Option Expr ← if ← skip .assign then some <$> expression else pure none
  if type.isNone && initial.isNone then failHere (.typeOrValueExpected name.name)
  let semicolon ← take .semicolon "';' after variable declaration"
  return ⟨keyword.position, name, type, initial, semicolon⟩

/-- A condition in parentheses after a keyword. -/
def condition (keyword : Bytes) : Parser Expr := do
  let _ ← take .leftParen ("'(' after '" ++ keyword ++ "'")
  let value ← expression
  let _ ← take .rightParen "')' after condition"
  return value

/-- What a loop with clauses does before its first round. -/
def loopStart : Parser (Option LoopStart) := do
  if ← skip .semicolon then return none
  if (← peek) == .varKeyword then
    return some (.variable (← variableDeclaration))
  return some (.expression (← expressionStatement))

/-- A return statement. -/
def returnStatement : Parser Stmt := do
  let keyword ← take .returnKeyword "'return'"
  let value ← expressionUnless .semicolon
  let semicolon ← take .semicolon "';' after return"
  return .return_ keyword.position value semicolon

/-- A jump out of a loop or to its next round. -/
def jumpStatement (inLoop : Bool) : Parser Stmt := fun tokens =>
  match tokens with
  | [] => .error ⟨.expected "statement", none⟩
  | keyword :: rest =>
      if inLoop then
        (do
          let _ ← take .semicolon ("';' after '" ++ keyword.lexeme ++ "'")
          return if keyword.kind == .breakKeyword then .break_ keyword else .continue_ keyword :
          Parser Stmt) rest
      else .error ⟨.outsideLoop keyword.lexeme, some keyword⟩

mutual

/-- A statement; `inLoop` tells whether jumps may stand in it. -/
def statementWithin : Nat → Bool → Parser Stmt
  | 0, _ => failHere .tooDeep
  | depth + 1, inLoop => do
      match ← peek with
      | .varKeyword => return .variable (← variableDeclaration)
      | .ifKeyword => conditionalWithin depth inLoop
      | .whileKeyword => whileWithin depth
      | .forKeyword => forWithin depth
      | .returnKeyword => returnStatement
      | .breakKeyword | .continueKeyword => jumpStatement inLoop
      | .leftBrace =>
          let (opening, body, closing) ← blockWithin depth inLoop
          return .block opening body closing
      | .funcKeyword => failHere .nestedFunction
      | _ => return .expression (← expressionStatement)

/-- Statements up to a closing brace or the end of the input. -/
def statementsWithin : Nat → Bool → Parser (List Stmt)
  | 0, _ => failHere .tooDeep
  | depth + 1, inLoop => do
      let next ← peek
      if next == .rightBrace || next == .eof then return []
      let statement ← statementWithin depth inLoop
      let others ← statementsWithin depth inLoop
      return statement :: others

/-- A block: an opening brace, statements and a closing brace. -/
def blockWithin : Nat → Bool → Parser (Token × List Stmt × Token)
  | 0, _ => failHere .tooDeep
  | depth + 1, inLoop => do
      let opening ← take .leftBrace "'\x7b'"
      let body ← statementsWithin depth inLoop
      let closing ← take .rightBrace "'\x7d' after block"
      return (opening, body, closing)

/-- A conditional. -/
def conditionalWithin : Nat → Bool → Parser Stmt
  | 0, _ => failHere .tooDeep
  | depth + 1, inLoop => do
      let keyword ← take .ifKeyword "'if'"
      let test ← condition "if"
      let (opening, consequent, closing) ← blockWithin depth inLoop
      if ← skip .elseKeyword then
        if (← peek) == .ifKeyword then
          let alternative ← conditionalWithin depth inLoop
          return .conditional keyword.position test opening consequent closing (some alternative)
        else
          let (first, body, last) ← blockWithin depth inLoop
          return .conditional keyword.position test opening consequent closing
            (some (.block first body last))
      else return .conditional keyword.position test opening consequent closing none

/-- A loop with a condition only. -/
def whileWithin : Nat → Parser Stmt
  | 0 => failHere .tooDeep
  | depth + 1 => do
      let keyword ← take .whileKeyword "'while'"
      let test ← condition "while"
      let (opening, body, closing) ← blockWithin depth true
      return .loop keyword none (some test) none opening body closing

/-- A loop with clauses. -/
def forWithin : Nat → Parser Stmt
  | 0 => failHere .tooDeep
  | depth + 1 => do
      let keyword ← take .forKeyword "'for'"
      let _ ← take .leftParen "'(' after 'for'"
      let start ← loopStart
      let test ← expressionUnless .semicolon
      let _ ← take .semicolon "';' after loop condition"
      let advance ← expressionUnless .rightParen
      let _ ← take .rightParen "')' after for clauses"
      let (opening, body, closing) ← blockWithin depth true
      return .loop keyword start test advance opening body closing

end

/-- A statement at top level. -/
def statement : Parser Stmt := fun tokens => statementWithin (4 * tokens.length + 4) false tokens

/-- A block that stands in no loop. -/
def block : Parser (Token × List Stmt × Token) := fun tokens =>
  blockWithin (4 * tokens.length + 4) false tokens

/-- A parameter, with or without a colon before its type. -/
def param : Parser Param := do
  let name ← identifier "parameter name"
  let _ ← skip .colon
  let type ← identifier "parameter type"
  return ⟨name, type⟩

/-- One or more parameters divided by commas; the bound is a number of parameters. -/
def paramsWithin : Nat → Parser (List Param)
  | 0 => failHere .tooDeep
  | count + 1 => do
      let first ← param
      if ← skip .comma then
        let others ← paramsWithin count
        return first :: others
      else return [first]

/-- The parameters of a function. -/
def params : Parser (List Param) := do
  if (← peek) == .rightParen then return []
  let tokens ← get
  paramsWithin (tokens.length + 1)

/-- A function declaration. -/
def functionDeclaration : Parser FunctionDecl := do
  let keyword ← take .funcKeyword "'func'"
  let name ← identifier "function name"
  let _ ← take .leftParen "'(' after function name"
  let parameters ← params
  let _ ← take .rightParen "')' after parameters"
  let result ←
    if (← peek) == .identifier then some <$> identifier "result type" else pure none
  if (← peek) != .leftBrace then failHere .bodyExpected
  let (opening, body, closing) ← block
  return ⟨keyword.position, name, parameters, result, opening, body, closing⟩

/-- The items of a program up to the end of the input; the bound is a number of items. -/
def itemsWithin : Nat → Parser (List Item)
  | 0 => failHere .tooDeep
  | count + 1 => do
      let next ← peek
      if next == .eof then return []
      let item ←
        if next == .funcKeyword then Item.function <$> functionDeclaration
        else Item.statement <$> statement
      let others ← itemsWithin count
      return item :: others

/-- The items of a program. -/
def items : Parser (List Item) := fun tokens => itemsWithin (tokens.length + 1) tokens

end Parser

namespace Program

/-- The tokens before the first one of the kind `eof`. -/
def content (tokens : List Token) : List Token := tokens.takeWhile fun token => token.kind != .eof

/-- The position of the end of the input: that of the first token of the kind `eof`, or the place
right behind the last token if there is none. -/
def ending (tokens : List Token) : Position :=
  match tokens.find? fun token => token.kind == .eof with
  | some token => token.position
  | none =>
      match tokens.getLast? with
      | some token => token.next
      | none => {}

/-- The diagnostic of a syntax error. -/
def diagnostic (origin : Origin) (tokens : List Token) (error : SyntaxError) : Diagnostic :=
  { category := .invalidSyntax
    details := error.message
    position := (error.token.map Token.position).getD (ending tokens)
    origin := origin
    incomplete := error.token.isNone }

/-- Reads a program from tokens. -/
def ofTokens (origin : Origin) (tokens : List Token) : Except Diagnostic Program :=
  match Parser.items (content tokens) with
  | .ok (items, _) => .ok ⟨origin.file, items, ending tokens⟩
  | .error error => .error (diagnostic origin tokens error)

end Program

end ScriptCompiler
