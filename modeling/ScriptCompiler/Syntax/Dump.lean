import ScriptCompiler.Number.Decimal
import ScriptCompiler.Syntax.Tree

/-!
# Dumps of syntax trees

A dump is an outline of records and lists, one field or element on a line, indented by two blanks
for each level.  Fields that hold nothing, such as zero, the empty text or an absent node, are left
out, except the value of a literal.
-/

namespace ScriptCompiler

/-- An outline of nested records and lists. -/
inductive Outline where
  /-- A value on one line. -/
  | atom (text : Bytes)
  /-- A record with a title and named fields. -/
  | record (title : Bytes) (fields : List (Bytes × Outline))
  /-- A list with a title. -/
  | list (title : Bytes) (elements : List Outline)

namespace Outline

/-- The blanks in front of a line at a level. -/
def indentation (level : Nat) : Bytes := Bytes.filled (2 * level) 0x20

mutual

/-- The text of an outline whose lines after the first one are indented for a level. -/
def render (level : Nat) : Outline → Bytes
  | .atom text => text
  | .record title fields =>
      match fields with
      | [] => title ++ "\x7b\x7d"
      | _ => title ++ "\x7b\n" ++ renderFields (level + 1) fields ++ indentation level ++ "\x7d"
  | .list title elements =>
      match elements with
      | [] => title ++ "\x7b\x7d"
      | _ => title ++ "\x7b\n" ++ renderElements (level + 1) elements ++ indentation level ++ "\x7d"

/-- The lines of the fields of a record. -/
def renderFields (level : Nat) : List (Bytes × Outline) → Bytes
  | [] => []
  | (name, value) :: rest =>
      indentation level ++ name ++ ": " ++ value.render level ++ ",\n" ++ renderFields level rest

/-- The lines of the elements of a list. -/
def renderElements (level : Nat) : List Outline → Bytes
  | [] => []
  | element :: rest =>
      indentation level ++ element.render level ++ ",\n" ++ renderElements level rest

end

/-- A field with a number, unless it is zero. -/
def number (name : String) (value : Int) : List (Bytes × Outline) :=
  if value == 0 then [] else [(name, .atom (Bytes.ofInt value))]

/-- A field with a text, unless it is empty. -/
def quoted (name : String) (value : Bytes) : List (Bytes × Outline) :=
  if value.isEmpty then [] else [(name, .atom (Quoted.text value))]

/-- A field with a record, unless the record has no fields. -/
def nested (name : String) (title : String) (fields : List (Bytes × Outline)) :
    List (Bytes × Outline) :=
  if fields.isEmpty then [] else [(name, .record title fields)]

/-- A field with a list, unless it is empty. -/
def listed (name : String) (title : String) (elements : List Outline) : List (Bytes × Outline) :=
  if elements.isEmpty then [] else [(name, .list title elements)]

/-- A field with a node. -/
def node (name : String) (value : Outline) : List (Bytes × Outline) := [(name, value)]

/-- A field with a node, unless it is absent. -/
def optional (name : String) : Option Outline → List (Bytes × Outline)
  | none => []
  | some value => [(name, value)]

end Outline

/-- The fields of a position. -/
def Position.outline (position : Position) : List (Bytes × Outline) :=
  Outline.quoted "Filename" position.file ++ Outline.number "Line" position.line ++
    Outline.number "Column" position.column ++ Outline.number "Offset" position.offset

/-- The fields of a token. -/
def Token.outline (token : Token) : List (Bytes × Outline) :=
  Outline.number "Type" token.kind.code ++ Outline.quoted "Lexeme" token.lexeme ++
    Outline.nested "Position" "Position" token.position.outline ++
    Outline.number "Length" token.length

/-- A field with a token. -/
def Outline.token (name : String) (token : Token) : List (Bytes × Outline) :=
  Outline.nested name "Token" token.outline

/-- A field with a position. -/
def Outline.place (name : String) (position : Position) : List (Bytes × Outline) :=
  Outline.nested name "Position" position.outline

/-- The outline of an identifier. -/
def Identifier.outline (identifier : Identifier) : Outline :=
  .record "&IdentifierExpr"
    (Outline.token "Token" identifier.token ++ Outline.quoted "Name" identifier.name)

namespace Literal

/-- How numbers with a fraction are laid out. -/
def fractionLayout : Decimal.Layout := { beyond := 6 }

/-- A floating-point number: with one digit after the point when it is a whole number, and with its
shortest digits otherwise. -/
def floatText (value : Float) : Bytes :=
  match Binary64.shape value with
  | .finite negative mantissa exponent =>
      let whole := mantissa * Nat.pow 2 exponent.toNat
      let divisor := Nat.pow 2 (-exponent).toNat
      if whole % divisor == 0 then
        (if negative then "-" else "") ++ Bytes.ofNat (whole / divisor) ++ ".0"
      else Binary64.text fractionLayout value
  | _ => Binary64.text fractionLayout value

/-- The number of the kind of a literal. -/
def code : Literal → Nat
  | .int _ => 0
  | .float _ => 1
  | .bool _ => 2
  | .string _ => 3

/-- The value of a literal on one line. -/
def text : Literal → Bytes
  | .int value => Bytes.ofInt value
  | .float value => floatText value
  | .bool value => if value then "true" else "false"
  | .string value => Quoted.text value

end Literal

mutual

/-- The outline of an expression. -/
def Expr.outline : Expr → Outline
  | .literal token value =>
      .record "&LiteralExpr" (Outline.token "Token" token ++ Outline.number "Kind" value.code ++
        Outline.node "Value" (.atom value.text))
  | .variable identifier => identifier.outline
  | .binary left operator right =>
      .record "&BinaryExpr" (Outline.node "Left" left.outline ++
        Outline.token "Operator" operator ++ Outline.node "Right" right.outline)
  | .logical left operator right =>
      .record "&LogicalExpr" (Outline.node "Left" left.outline ++
        Outline.token "Operator" operator ++ Outline.node "Right" right.outline)
  | .unary operator operand =>
      .record "&UnaryExpr" (Outline.token "Operator" operator ++
        Outline.node "Operand" operand.outline)
  | .assignment target operator value =>
      .record "&AssignmentExpr" (Outline.node "Target" target.outline ++
        Outline.token "Operator" operator ++ Outline.node "Value" value.outline)
  | .call callee arguments closing =>
      .record "&CallExpr" (Outline.node "Callee" callee.outline ++
        Outline.listed "Args" "[]Expr" (Expr.outlines arguments) ++
        Outline.token "RightParen" closing)
  | .group opening inner closing =>
      .record "&GroupingExpr" (Outline.token "LeftParen" opening ++
        Outline.node "Inner" inner.outline ++ Outline.token "RightParen" closing)

/-- The outlines of expressions. -/
def Expr.outlines : List Expr → List Outline
  | [] => []
  | expression :: rest => expression.outline :: Expr.outlines rest

end

/-- The outline of an expression statement. -/
def ExprStmt.outline (statement : ExprStmt) : Outline :=
  .record "&ExprStmt" (Outline.node "Expression" statement.expression.outline ++
    Outline.token "Semicolon" statement.semicolon)

/-- The outline of a variable declaration. -/
def VarDecl.outline (declaration : VarDecl) : Outline :=
  .record "&VarDecl" (Outline.place "VarPos" declaration.first ++
    Outline.node "Name" declaration.name.outline ++
    Outline.optional "Type" (declaration.type.map Identifier.outline) ++
    Outline.optional "Init" (declaration.initial.map Expr.outline) ++
    Outline.token "Semicolon" declaration.semicolon)

/-- The outline of what a loop does before its first round. -/
def LoopStart.outline : LoopStart → Outline
  | .variable declaration => declaration.outline
  | .expression statement => statement.outline

/-- The outline of a block whose statements are outlined already. -/
def Outline.block (opening : Token) (body : List Outline) (closing : Token) : Outline :=
  .record "&BlockStmt" (Outline.token "LeftBrace" opening ++
    Outline.listed "Stmts" "[]Stmt" body ++ Outline.token "RightBrace" closing)

mutual

/-- The outline of a statement. -/
def Stmt.outline : Stmt → Outline
  | .expression statement => statement.outline
  | .variable declaration => declaration.outline
  | .block opening body closing => Outline.block opening (Stmt.outlines body) closing
  | .conditional first condition opening consequent closing alternative =>
      .record "&IfStmt" (Outline.place "IfPos" first ++
        Outline.node "Condition" condition.outline ++
        Outline.node "Then" (Outline.block opening (Stmt.outlines consequent) closing) ++
        match alternative with
        | none => []
        | some statement => Outline.node "Else" statement.outline)
  | .loop keyword start condition advance opening body closing =>
      .record "&LoopStmt" (Outline.token "Keyword" keyword ++
        Outline.optional "Init" (start.map LoopStart.outline) ++
        Outline.optional "Condition" (condition.map Expr.outline) ++
        Outline.optional "Post" (advance.map Expr.outline) ++
        Outline.node "Body" (Outline.block opening (Stmt.outlines body) closing))
  | .return_ first value semicolon =>
      .record "&ReturnStmt" (Outline.place "ReturnPos" first ++
        Outline.optional "Value" (value.map Expr.outline) ++ Outline.token "Semicolon" semicolon)
  | .break_ keyword => .record "&BreakStmt" (Outline.token "Keyword" keyword)
  | .continue_ keyword => .record "&ContinueStmt" (Outline.token "Keyword" keyword)
  | .function first => .record "&FuncDecl" (Outline.place "FuncPos" first)

/-- The outlines of statements. -/
def Stmt.outlines : List Stmt → List Outline
  | [] => []
  | statement :: rest => statement.outline :: Stmt.outlines rest

end

/-- The outline of a parameter. -/
def Param.outline (param : Param) : Outline :=
  .record "&Param"
    (Outline.node "Name" param.name.outline ++ Outline.node "Type" param.type.outline)

/-- The outline of a function declaration. -/
def FunctionDecl.outline (declaration : FunctionDecl) : Outline :=
  .record "&FuncDecl" (Outline.place "FuncPos" declaration.first ++
    Outline.node "Name" declaration.name.outline ++
    Outline.listed "Params" "[]*Param" (declaration.params.map Param.outline) ++
    Outline.optional "Result" (declaration.result.map Identifier.outline) ++
    Outline.node "Body"
      (Outline.block declaration.opening (Stmt.outlines declaration.body) declaration.closing))

/-- The outline of an item. -/
def Item.outline : Item → Outline
  | .function declaration => declaration.outline
  | .statement content => content.outline

/-- The dump of a program. -/
def Program.dump (program : Program) : Bytes :=
  let outline : Outline :=
    .record "&Program" (Outline.quoted "Filename" program.file ++
      Outline.listed "Stmts" "[]Stmt" (program.items.map Item.outline) ++
      Outline.place "EOF" program.last)
  outline.render 0 ++ "\n"

end ScriptCompiler
