import ScriptCompiler.Syntax.Tree

/-!
# Trees of programs that can be written

Not every tree is the tree of a text: an integer literal fits in 32 bits, and what stands behind
`else` is a block or a conditional.
-/

namespace ScriptCompiler

/-- A literal that can be written. -/
def Literal.Fits : Literal → Prop
  | .int value => -2147483648 ≤ value ∧ value ≤ 2147483647
  | .float _ | .bool _ | .string _ => True

mutual

/-- An expression that can be written. -/
def Expr.Written : Expr → Prop
  | .literal _ value => value.Fits
  | .variable _ => True
  | .binary left _ right => left.Written ∧ right.Written
  | .logical left _ right => left.Written ∧ right.Written
  | .unary _ operand => operand.Written
  | .assignment _ _ value => value.Written
  | .call _ arguments _ => Expr.AllWritten arguments
  | .group _ inner _ => inner.Written

/-- Expressions that can be written. -/
def Expr.AllWritten : List Expr → Prop
  | [] => True
  | expression :: rest => expression.Written ∧ Expr.AllWritten rest

end

/-- A declaration of a variable that can be written. -/
def VarDecl.Written (declaration : VarDecl) : Prop :=
  ∀ expression ∈ declaration.initial, expression.Written

/-- What a loop does before its first round, as it can be written. -/
def LoopStart.Written : LoopStart → Prop
  | .variable declaration => declaration.Written
  | .expression statement => statement.expression.Written

/-- A block or a conditional, as it stands behind `else`. -/
def Stmt.IsAlternative : Stmt → Prop
  | .block .. | .conditional .. => True
  | _ => False

mutual

/-- A statement that can be written. -/
def Stmt.Written : Stmt → Prop
  | .expression statement => statement.expression.Written
  | .variable declaration => declaration.Written
  | .block _ body _ => Stmt.AllWritten body
  | .conditional _ condition _ consequent _ none => condition.Written ∧ Stmt.AllWritten consequent
  | .conditional _ condition _ consequent _ (some alternative) =>
      condition.Written ∧ Stmt.AllWritten consequent ∧ alternative.IsAlternative ∧
        alternative.Written
  | .loop _ start condition advance _ body _ =>
      (∀ first ∈ start, first.Written) ∧ (∀ test ∈ condition, test.Written) ∧
        (∀ last ∈ advance, last.Written) ∧ Stmt.AllWritten body
  | .return_ _ value _ => ∀ result ∈ value, result.Written
  | .break_ _ | .continue_ _ | .function _ => True

/-- Statements that can be written. -/
def Stmt.AllWritten : List Stmt → Prop
  | [] => True
  | statement :: rest => statement.Written ∧ Stmt.AllWritten rest

end

/-- A program that can be written. -/
structure Program.Written (program : Program) : Prop where
  /-- The statements at top level can be written. -/
  statements : Stmt.AllWritten program.statements
  /-- The bodies of functions can be written. -/
  bodies : ∀ declaration ∈ program.functions, Stmt.AllWritten declaration.body

end ScriptCompiler
