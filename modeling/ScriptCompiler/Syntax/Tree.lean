import ScriptCompiler.Token.Kind

/-!
# Syntax trees

A program is a list of items, function declarations and statements, in source order.  Every node
keeps the tokens that its extent and its messages need, and has a first and a last position.
-/

namespace ScriptCompiler

/-- A name in the source. -/
structure Identifier where
  /-- The token that spells the name. -/
  token : Token
  deriving DecidableEq, Repr

namespace Identifier

/-- The name itself. -/
def name (identifier : Identifier) : Bytes := identifier.token.lexeme

/-- Where the name begins. -/
def first (identifier : Identifier) : Position := identifier.token.position

/-- Where the name ends. -/
def last (identifier : Identifier) : Position := identifier.token.last

end Identifier

/-- The value of a literal. -/
inductive Literal where
  /-- An integer. -/
  | int (value : Int)
  /-- A floating-point number. -/
  | float (value : Float)
  /-- A truth value. -/
  | bool (value : Bool)
  /-- A text, with its escapes decoded. -/
  | string (value : Bytes)

/-- An expression. -/
inductive Expr where
  /-- A constant written in the source. -/
  | literal (token : Token) (value : Literal)
  /-- The value of a variable. -/
  | variable (identifier : Identifier)
  /-- An arithmetic operation or a comparison. -/
  | binary (left : Expr) (operator : Token) (right : Expr)
  /-- A conjunction or disjunction that evaluates its right operand only if needed. -/
  | logical (left : Expr) (operator : Token) (right : Expr)
  /-- A negation. -/
  | unary (operator : Token) (operand : Expr)
  /-- An assignment, plain or compound. -/
  | assignment (target : Identifier) (operator : Token) (value : Expr)
  /-- A call of a named function. -/
  | call (callee : Identifier) (arguments : List Expr) (closing : Token)
  /-- An expression in parentheses. -/
  | group (opening : Token) (inner : Expr) (closing : Token)

namespace Expr

/-- Where an expression begins. -/
def first : Expr → Position
  | .literal token _ => token.position
  | .variable identifier => identifier.first
  | .binary left _ _ => left.first
  | .logical left _ _ => left.first
  | .unary operator _ => operator.position
  | .assignment target _ _ => target.first
  | .call callee _ _ => callee.first
  | .group opening _ _ => opening.position

/-- Where an expression ends. -/
def last : Expr → Position
  | .literal token _ => token.last
  | .variable identifier => identifier.last
  | .binary _ _ right => right.last
  | .logical _ _ right => right.last
  | .unary _ operand => operand.last
  | .assignment _ _ value => value.last
  | .call _ _ closing => closing.position
  | .group _ _ closing => closing.position

end Expr

/-- An expression used as a statement. -/
structure ExprStmt where
  /-- The expression. -/
  expression : Expr
  /-- The semicolon behind it. -/
  semicolon : Token

/-- The declaration of a variable.  The grammar gives it a type, an initial value or both. -/
structure VarDecl where
  /-- Where the declaration begins. -/
  first : Position
  /-- The name of the variable. -/
  name : Identifier
  /-- The declared type. -/
  type : Option Identifier
  /-- The initial value. -/
  initial : Option Expr
  /-- The semicolon behind it. -/
  semicolon : Token

/-- What a loop with clauses does before its first round. -/
inductive LoopStart where
  /-- It declares a variable. -/
  | variable (declaration : VarDecl)
  /-- It evaluates an expression. -/
  | expression (statement : ExprStmt)

/-- A statement.  The statements of a block stand between its two braces. -/
inductive Stmt where
  /-- An expression evaluated for its effect. -/
  | expression (statement : ExprStmt)
  /-- The declaration of a variable. -/
  | variable (declaration : VarDecl)
  /-- Statements in braces. -/
  | block (opening : Token) (body : List Stmt) (closing : Token)
  /-- A conditional; the alternative is a block or a conditional again. -/
  | conditional (first : Position) (condition : Expr) (opening : Token) (consequent : List Stmt)
      (closing : Token) (alternative : Option Stmt)
  /-- A loop, with or without clauses; without a condition it has no end of its own. -/
  | loop (keyword : Token) (start : Option LoopStart) (condition : Option Expr)
      (advance : Option Expr) (opening : Token) (body : List Stmt) (closing : Token)
  /-- A return from the function. -/
  | return_ (first : Position) (value : Option Expr) (semicolon : Token)
  /-- A jump behind the innermost loop. -/
  | break_ (keyword : Token)
  /-- A jump to the next round of the innermost loop. -/
  | continue_ (keyword : Token)
  /-- A function declaration in the place of a statement, where the grammar has none. -/
  | function (first : Position)

namespace Stmt

/-- Where a statement begins. -/
def first : Stmt → Position
  | .expression statement => statement.expression.first
  | .variable declaration => declaration.first
  | .block opening _ _ => opening.position
  | .conditional first _ _ _ _ _ => first
  | .loop keyword _ _ _ _ _ _ => keyword.position
  | .return_ first _ _ => first
  | .break_ keyword => keyword.position
  | .continue_ keyword => keyword.position
  | .function first => first

/-- Where a statement ends. -/
def last : Stmt → Position
  | .expression statement => statement.semicolon.position
  | .variable declaration => declaration.semicolon.position
  | .block _ _ closing => closing.position
  | .conditional _ _ _ _ closing alternative =>
      match alternative with
      | none => closing.position
      | some statement => statement.last
  | .loop _ _ _ _ _ _ closing => closing.position
  | .return_ _ _ semicolon => semicolon.position
  | .break_ keyword => keyword.last
  | .continue_ keyword => keyword.last
  | .function first => first

end Stmt

/-- A parameter of a function. -/
structure Param where
  /-- The name of the parameter. -/
  name : Identifier
  /-- Its type. -/
  type : Identifier

/-- The declaration of a function.  Without a result type the function returns nothing. -/
structure FunctionDecl where
  /-- Where the declaration begins. -/
  first : Position
  /-- The name of the function. -/
  name : Identifier
  /-- The parameters in order. -/
  params : List Param
  /-- The result type. -/
  result : Option Identifier
  /-- The opening brace of the body. -/
  opening : Token
  /-- The statements of the body. -/
  body : List Stmt
  /-- The closing brace of the body. -/
  closing : Token

/-- Where a function declaration ends. -/
def FunctionDecl.last (declaration : FunctionDecl) : Position := declaration.closing.position

/-- A part of a program at top level. -/
inductive Item where
  /-- A function declaration. -/
  | function (declaration : FunctionDecl)
  /-- A statement. -/
  | statement (statement : Stmt)

namespace Item

/-- Where an item begins. -/
def first : Item → Position
  | .function declaration => declaration.first
  | .statement content => content.first

/-- Where an item ends. -/
def last : Item → Position
  | .function declaration => declaration.last
  | .statement content => content.last

/-- The function that an item declares. -/
def function? : Item → Option FunctionDecl
  | .function declaration => some declaration
  | .statement _ => none

/-- The statement that an item is. -/
def statement? : Item → Option Stmt
  | .function _ => none
  | .statement content => some content

end Item

/-- A program. -/
structure Program where
  /-- The stem of its file. -/
  file : Bytes
  /-- Its parts in source order. -/
  items : List Item
  /-- The position of the end of the source. -/
  last : Position

namespace Program

/-- Where a program begins. -/
def first (program : Program) : Position :=
  match program.items with
  | [] => program.last
  | item :: _ => item.first

/-- The functions of a program in source order. -/
def functions (program : Program) : List FunctionDecl := program.items.filterMap Item.function?

/-- The statements at top level in source order. -/
def statements (program : Program) : List Stmt := program.items.filterMap Item.statement?

end Program

end ScriptCompiler
