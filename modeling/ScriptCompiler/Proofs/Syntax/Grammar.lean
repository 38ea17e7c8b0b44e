import Mathlib.Data.List.Basic
import ScriptCompiler.Proofs.Text.Digits
import ScriptCompiler.Syntax.Parser

/-!
# The grammar

The grammar of the script language as a relation between tokens and trees, said without the parser.
Expressions are stratified: one rule for each level at which operators bind, and a rule that passes
from a level to the next tighter one.  Statements know whether they stand in a loop.  The grammar
has a strict form, which is the language, and a loose form, in which a loop with clauses may leave
out its first clause together with the semicolon.

Every tree of the grammar keeps to the levels of its operators (`Grammar.AreItems.ordered`), which
can be read off the tree (`Expr.Ordered`).
-/

namespace ScriptCompiler

namespace Grammar

/-- Decimal digits, the most significant first, and the number that they denote. -/
inductive Digits : Bytes → Nat → Prop where
  | one {digit : UInt8} : Bytes.IsDigit digit → Digits [digit] (digit.toNat - 0x30)
  | more {digits : Bytes} {value : Nat} {digit : UInt8} : Digits digits value →
      Bytes.IsDigit digit → Digits (digits ++ [digit]) (value * 10 + (digit.toNat - 0x30))

/-- A decimal numeral with an optional sign, and the integer that it denotes. -/
inductive Decimal : Bytes → Int → Prop where
  | plain {digits : Bytes} {value : Nat} : Digits digits value → Decimal digits value
  | plus {digits : Bytes} {value : Nat} : Digits digits value → Decimal (0x2B :: digits) value
  | minus {digits : Bytes} {value : Nat} : Digits digits value → Decimal (0x2D :: digits) (-value)

/-- The literal that a token spells. -/
inductive Spells : Token → Literal → Prop where
  | int {token : Token} {value : Int} : token.kind = .int → Decimal token.lexeme value →
      -2147483648 ≤ value → value ≤ 2147483647 → Spells token (.int value)
  | float {token : Token} {value : Float} : token.kind = .float →
      Numeral.double? token.lexeme = some value → Spells token (.float value)
  | string {token : Token} : token.kind = .string → Spells token (.string (unquote token.lexeme))
  | true_ {token : Token} : token.kind = .trueKeyword → Spells token (.bool true)
  | false_ {token : Token} : token.kind = .falseKeyword → Spells token (.bool false)

/-- The binary operators of a level that evaluate both operands. -/
def arithmetic : Precedence → List TokenKind
  | .equality => [.equal, .notEqual]
  | .comparison => [.less, .lessEqual, .greater, .greaterEqual]
  | .term => [.plus, .minus]
  | .factor => [.star, .slash, .percent]
  | _ => []

/-- The binary operators of a level that may pass over their right operand. -/
def connectives : Precedence → List TokenKind
  | .disjunction => [.eitherOr]
  | .conjunction => [.bothAnd]
  | _ => []

mutual

/-- Tokens are an expression whose operators bind at least as tightly as a level. -/
inductive IsExpr : Precedence → List Token → Expr → Prop where
  | assignment {target operator : Token} {tokens : List Token} {value : Expr} :
      target.kind = .identifier → operator.kind.isAssignment = true →
      IsExpr .assignment tokens value →
      IsExpr .assignment (target :: operator :: tokens) (.assignment ⟨target⟩ operator value)
  | logical {level : Precedence} {first second : List Token} {left right : Expr}
      {operator : Token} :
      operator.kind ∈ connectives level → IsExpr level first left →
      IsExpr level.tighter second right →
      IsExpr level (first ++ operator :: second) (.logical left operator right)
  | binary {level : Precedence} {first second : List Token} {left right : Expr} {operator : Token} :
      operator.kind ∈ arithmetic level → IsExpr level first left →
      IsExpr level.tighter second right →
      IsExpr level (first ++ operator :: second) (.binary left operator right)
  | unary {operator : Token} {tokens : List Token} {operand : Expr} :
      operator.kind = .minus ∨ operator.kind = .bang → IsExpr .unary tokens operand →
      IsExpr .unary (operator :: tokens) (.unary operator operand)
  | call {callee opening closing : Token} {tokens : List Token} {arguments : List Expr} :
      callee.kind = .identifier → opening.kind = .leftParen → closing.kind = .rightParen →
      AreArguments tokens arguments →
      IsExpr .call (callee :: opening :: (tokens ++ [closing])) (.call ⟨callee⟩ arguments closing)
  | literal {token : Token} {value : Literal} : Spells token value →
      IsExpr .primary [token] (.literal token value)
  | variable {token : Token} : token.kind = .identifier →
      IsExpr .primary [token] (.variable ⟨token⟩)
  | group {opening closing : Token} {tokens : List Token} {inner : Expr} :
      opening.kind = .leftParen → closing.kind = .rightParen → IsExpr .assignment tokens inner →
      IsExpr .primary (opening :: (tokens ++ [closing])) (.group opening inner closing)
  | tighter {level : Precedence} {tokens : List Token} {expression : Expr} :
      IsExpr level.tighter tokens expression → IsExpr level tokens expression

/-- Tokens are the arguments of a call: none, or some divided by commas. -/
inductive AreArguments : List Token → List Expr → Prop where
  | none : AreArguments [] []
  | some {tokens : List Token} {arguments : List Expr} :
      AreSomeArguments tokens arguments → AreArguments tokens arguments

/-- Tokens are one or more arguments divided by commas. -/
inductive AreSomeArguments : List Token → List Expr → Prop where
  | one {tokens : List Token} {argument : Expr} :
      IsExpr .assignment tokens argument → AreSomeArguments tokens [argument]
  | more {first rest : List Token} {comma : Token} {argument : Expr} {others : List Expr} :
      IsExpr .assignment first argument → comma.kind = .comma → AreSomeArguments rest others →
      AreSomeArguments (first ++ comma :: rest) (argument :: others)

end

/-- Tokens are an expression followed by a semicolon. -/
inductive IsExprStmt : List Token → ExprStmt → Prop where
  | mk {tokens : List Token} {expression : Expr} {semicolon : Token} :
      IsExpr .assignment tokens expression → semicolon.kind = .semicolon →
      IsExprStmt (tokens ++ [semicolon]) ⟨expression, semicolon⟩

/-- Tokens are an optional expression. -/
inductive IsOptional : List Token → Option Expr → Prop where
  | none : IsOptional [] none
  | some {tokens : List Token} {expression : Expr} :
      IsExpr .assignment tokens expression → IsOptional tokens (some expression)

/-- Tokens are the name of a type, behind a colon or not. -/
inductive IsType : List Token → Identifier → Prop where
  | plain {name : Token} : name.kind = .identifier → IsType [name] ⟨name⟩
  | colon {colon name : Token} : colon.kind = .colon → name.kind = .identifier →
      IsType [colon, name] ⟨name⟩

/-- Tokens are the type in a declaration of a variable, or nothing. -/
inductive IsDeclaredType : List Token → Option Identifier → Prop where
  | none : IsDeclaredType [] none
  | some {tokens : List Token} {type : Identifier} : IsType tokens type →
      IsDeclaredType tokens (some type)

/-- Tokens are the initial value in a declaration of a variable, or nothing. -/
inductive IsInitial : List Token → Option Expr → Prop where
  | none : IsInitial [] none
  | some {equals : Token} {tokens : List Token} {expression : Expr} : equals.kind = .assign →
      IsExpr .assignment tokens expression → IsInitial (equals :: tokens) (some expression)

/-- Tokens are the declaration of a variable, with a type or an initial value. -/
inductive IsVarDecl : List Token → VarDecl → Prop where
  | mk {keyword name semicolon : Token} {typing initialising : List Token}
      {type : Option Identifier} {initial : Option Expr} :
      keyword.kind = .varKeyword → name.kind = .identifier → IsDeclaredType typing type →
      IsInitial initialising initial → type.isSome ∨ initial.isSome →
      semicolon.kind = .semicolon →
      IsVarDecl (keyword :: name :: (typing ++ initialising ++ [semicolon]))
        ⟨keyword.position, ⟨name⟩, type, initial, semicolon⟩

/-- Tokens are what a loop does before its first round, with the semicolon behind it.  The loose
form of the grammar lets a loop leave out both. -/
inductive IsLoopStart (loose : Bool) : List Token → Option LoopStart → Prop where
  | none {semicolon : Token} : semicolon.kind = .semicolon → IsLoopStart loose [semicolon] none
  | omitted : loose = true → IsLoopStart loose [] none
  | variable {tokens : List Token} {declaration : VarDecl} : IsVarDecl tokens declaration →
      IsLoopStart loose tokens (some (.variable declaration))
  | expression {tokens : List Token} {statement : ExprStmt} : IsExprStmt tokens statement →
      IsLoopStart loose tokens (some (.expression statement))

mutual

/-- Tokens are a statement, which stands in a loop or not. -/
inductive IsStmt (loose : Bool) : Bool → List Token → Stmt → Prop where
  | expression {inLoop : Bool} {tokens : List Token} {statement : ExprStmt} :
      IsExprStmt tokens statement → IsStmt loose inLoop tokens (.expression statement)
  | variable {inLoop : Bool} {tokens : List Token} {declaration : VarDecl} :
      IsVarDecl tokens declaration → IsStmt loose inLoop tokens (.variable declaration)
  | block {inLoop : Bool} {tokens : List Token} {opening closing : Token} {body : List Stmt} :
      IsBlock loose inLoop tokens (opening, body, closing) →
      IsStmt loose inLoop tokens (.block opening body closing)
  | conditional {inLoop : Bool} {tokens : List Token} {statement : Stmt} :
      IsConditional loose inLoop tokens statement → IsStmt loose inLoop tokens statement
  | while_ {inLoop : Bool} {keyword left right opening closing : Token} {testing block : List Token}
      {test : Expr} {body : List Stmt} :
      keyword.kind = .whileKeyword → left.kind = .leftParen → IsExpr .assignment testing test →
      right.kind = .rightParen → IsBlock loose true block (opening, body, closing) →
      IsStmt loose inLoop (keyword :: left :: (testing ++ right :: block))
        (.loop keyword none (some test) none opening body closing)
  | for_ {inLoop : Bool} {keyword left middle right opening closing : Token}
      {starting testing advancing block : List Token} {start : Option LoopStart}
      {test advance : Option Expr} {body : List Stmt} :
      keyword.kind = .forKeyword → left.kind = .leftParen → IsLoopStart loose starting start →
      IsOptional testing test → middle.kind = .semicolon → IsOptional advancing advance →
      right.kind = .rightParen → IsBlock loose true block (opening, body, closing) →
      IsStmt loose inLoop
        (keyword :: left :: (starting ++ (testing ++ middle :: (advancing ++ right :: block))))
        (.loop keyword start test advance opening body closing)
  | return_ {inLoop : Bool} {keyword semicolon : Token} {tokens : List Token}
      {value : Option Expr} :
      keyword.kind = .returnKeyword → IsOptional tokens value → semicolon.kind = .semicolon →
      IsStmt loose inLoop (keyword :: (tokens ++ [semicolon]))
        (.return_ keyword.position value semicolon)
  | break_ {keyword semicolon : Token} :
      keyword.kind = .breakKeyword → semicolon.kind = .semicolon →
      IsStmt loose true [keyword, semicolon] (.break_ keyword)
  | continue_ {keyword semicolon : Token} :
      keyword.kind = .continueKeyword → semicolon.kind = .semicolon →
      IsStmt loose true [keyword, semicolon] (.continue_ keyword)

/-- Tokens are statements one after the other. -/
inductive AreStmts (loose : Bool) : Bool → List Token → List Stmt → Prop where
  | none {inLoop : Bool} : AreStmts loose inLoop [] []
  | more {inLoop : Bool} {first rest : List Token} {statement : Stmt} {others : List Stmt} :
      IsStmt loose inLoop first statement → AreStmts loose inLoop rest others →
      AreStmts loose inLoop (first ++ rest) (statement :: others)

/-- Tokens are statements in braces. -/
inductive IsBlock (loose : Bool) : Bool → List Token → Token × List Stmt × Token → Prop where
  | mk {inLoop : Bool} {opening closing : Token} {tokens : List Token} {body : List Stmt} :
      opening.kind = .leftBrace → AreStmts loose inLoop tokens body → closing.kind = .rightBrace →
      IsBlock loose inLoop (opening :: (tokens ++ [closing])) (opening, body, closing)

/-- Tokens are a conditional. -/
inductive IsConditional (loose : Bool) : Bool → List Token → Stmt → Prop where
  | mk {inLoop : Bool} {keyword left right opening closing : Token}
      {testing block alternating : List Token} {test : Expr} {consequent : List Stmt}
      {alternative : Option Stmt} :
      keyword.kind = .ifKeyword → left.kind = .leftParen → IsExpr .assignment testing test →
      right.kind = .rightParen → IsBlock loose inLoop block (opening, consequent, closing) →
      IsAlternative loose inLoop alternating alternative →
      IsConditional loose inLoop (keyword :: left :: (testing ++ right :: (block ++ alternating)))
        (.conditional keyword.position test opening consequent closing alternative)

/-- Tokens are the alternative of a conditional, or nothing. -/
inductive IsAlternative (loose : Bool) : Bool → List Token → Option Stmt → Prop where
  | none {inLoop : Bool} : IsAlternative loose inLoop [] none
  | block {inLoop : Bool} {keyword opening closing : Token} {tokens : List Token}
      {body : List Stmt} :
      keyword.kind = .elseKeyword → IsBlock loose inLoop tokens (opening, body, closing) →
      IsAlternative loose inLoop (keyword :: tokens) (some (.block opening body closing))
  | conditional {inLoop : Bool} {keyword : Token} {tokens : List Token} {statement : Stmt} :
      keyword.kind = .elseKeyword → IsConditional loose inLoop tokens statement →
      IsAlternative loose inLoop (keyword :: tokens) (some statement)

end

/-- Tokens are one or more parameters divided by commas. -/
inductive AreSomeParams : List Token → List Param → Prop where
  | one {name : Token} {typing : List Token} {type : Identifier} : name.kind = .identifier →
      IsType typing type → AreSomeParams (name :: typing) [⟨⟨name⟩, type⟩]
  | more {name comma : Token} {typing rest : List Token} {type : Identifier} {others : List Param} :
      name.kind = .identifier → IsType typing type → comma.kind = .comma →
      AreSomeParams rest others →
      AreSomeParams (name :: (typing ++ comma :: rest)) (⟨⟨name⟩, type⟩ :: others)

/-- Tokens are the parameters of a function. -/
inductive AreParams : List Token → List Param → Prop where
  | none : AreParams [] []
  | some {tokens : List Token} {params : List Param} : AreSomeParams tokens params →
      AreParams tokens params

/-- Tokens are the result type of a function, or nothing. -/
inductive IsResult : List Token → Option Identifier → Prop where
  | none : IsResult [] none
  | some {name : Token} : name.kind = .identifier → IsResult [name] (some ⟨name⟩)

/-- Tokens are a function declaration. -/
inductive IsFunction (loose : Bool) : List Token → FunctionDecl → Prop where
  | mk {keyword name left right opening closing : Token} {listing ending block : List Token}
      {params : List Param} {result : Option Identifier} {body : List Stmt} :
      keyword.kind = .funcKeyword → name.kind = .identifier → left.kind = .leftParen →
      AreParams listing params → right.kind = .rightParen → IsResult ending result →
      IsBlock loose false block (opening, body, closing) →
      IsFunction loose (keyword :: name :: left :: (listing ++ right :: (ending ++ block)))
        ⟨keyword.position, ⟨name⟩, params, result, opening, body, closing⟩

/-- Tokens are the items of a program. -/
inductive AreItems (loose : Bool) : List Token → List Item → Prop where
  | none : AreItems loose [] []
  | function {first rest : List Token} {declaration : FunctionDecl} {others : List Item} :
      IsFunction loose first declaration → AreItems loose rest others →
      AreItems loose (first ++ rest) (.function declaration :: others)
  | statement {first rest : List Token} {statement : Stmt} {others : List Item} :
      IsStmt loose false first statement → AreItems loose rest others →
      AreItems loose (first ++ rest) (.statement statement :: others)

/-! ### Levels -/

section Levels

variable {level weaker : Precedence} {tokens : List Token} {expression : Expr}

theorem level_tighter (level : Precedence) (loosest : level ≠ .primary) :
    level.tighter.level = level.level + 1 := by
  cases level <;> first | rfl | exact absurd rfl loosest

theorem level_le_primary (level : Precedence) : level.level ≤ Precedence.primary.level := by
  cases level <;> decide

/-- What is an expression of a level is one of every weaker level. -/
theorem IsExpr.weaken (derived : IsExpr level tokens expression)
    (weak : weaker.level ≤ level.level) :
    IsExpr weaker tokens expression := by
  -- Induction on the number of levels between the two.
  obtain ⟨gap, between⟩ := Nat.exists_eq_add_of_le weak
  induction gap generalizing weaker with
  | zero =>
      have same : level = weaker := by
        cases level <;> cases weaker <;> first | rfl | cases between
      exact same ▸ derived
  | succ gap ih =>
      have loosest : weaker ≠ .primary := by
        rintro rfl
        have bound := level_le_primary level
        omega
      refine .tighter (ih ?_ ?_) <;> rw [level_tighter weaker loosest] <;> omega

theorem ofOperator_of_arithmetic {kind : TokenKind} (member : kind ∈ arithmetic level) :
    Precedence.ofOperator kind = level := by
  cases level <;> simp [arithmetic] at member <;> rcases member with rfl | rfl | rfl | rfl <;> rfl

theorem ofOperator_of_connectives {kind : TokenKind} (member : kind ∈ connectives level) :
    Precedence.ofOperator kind = level := by
  cases level <;> simp [connectives] at member <;> subst member <;> rfl

theorem ofOperator_of_isAssignment {kind : TokenKind} (assigns : kind.isAssignment = true) :
    Precedence.ofOperator kind = .assignment := by
  cases kind <;> first | rfl | cases assigns

theorem IsExpr.of_variable {level : Precedence} {tokens : List Token} {expression : Expr} :
    IsExpr level tokens expression → ∀ target, expression = .variable target →
      tokens = [target.token] ∧ target.token.kind = .identifier
  | .variable isName => by
      rintro target ⟨⟩
      exact ⟨rfl, isName⟩
  | .tighter inner => inner.of_variable
  | .assignment .. | .logical .. | .binary .. | .unary .. | .call .. | .literal _ | .group .. => by
      intro target other
      cases other

end Levels

end Grammar

/-- The level of the outermost operator of an expression. -/
def Expr.level : Expr → Precedence
  | .assignment .. => .assignment
  | .logical _ operator _ | .binary _ operator _ => Precedence.ofOperator operator.kind
  | .unary .. => .unary
  | .call .. => .call
  | .literal .. | .variable _ | .group .. => .primary

mutual

/-- Operands without parentheses bind tighter than their operator; on the left of a binary operator
and on the right of an assignment they may bind as tightly. -/
def Expr.Ordered : Expr → Prop
  | .literal .. | .variable _ => True
  | .logical left operator right | .binary left operator right =>
      (Precedence.ofOperator operator.kind).level ≤ left.level.level ∧
        (Precedence.ofOperator operator.kind).level < right.level.level ∧
        left.Ordered ∧ right.Ordered
  | .unary _ operand => Precedence.unary.level ≤ operand.level.level ∧ operand.Ordered
  | .assignment _ _ value => Precedence.assignment.level ≤ value.level.level ∧ value.Ordered
  | .call _ arguments _ => Expr.AllOrdered arguments
  | .group _ inner _ => inner.Ordered

/-- All expressions of a list are ordered. -/
def Expr.AllOrdered : List Expr → Prop
  | [] => True
  | expression :: rest => expression.Ordered ∧ Expr.AllOrdered rest

end

/-- The expressions in a declaration of a variable. -/
def VarDecl.exprs (declaration : VarDecl) : List Expr := declaration.initial.toList

/-- The expressions in what a loop does before its first round. -/
def LoopStart.exprs : LoopStart → List Expr
  | .variable declaration => declaration.exprs
  | .expression statement => [statement.expression]

mutual

/-- The expressions in a statement that are no parts of others. -/
def Stmt.exprs : Stmt → List Expr
  | .expression statement => [statement.expression]
  | .variable declaration => declaration.exprs
  | .block _ body _ => Stmt.allExprs body
  | .conditional _ test _ consequent _ none => test :: Stmt.allExprs consequent
  | .conditional _ test _ consequent _ (some alternative) =>
      test :: (Stmt.allExprs consequent ++ alternative.exprs)
  | .loop _ start test advance _ body _ =>
      start.toList.flatMap LoopStart.exprs ++ test.toList ++ advance.toList ++ Stmt.allExprs body
  | .return_ _ value _ => value.toList
  | .break_ _ | .continue_ _ | .function _ => []

/-- The expressions in statements that are no parts of others. -/
def Stmt.allExprs : List Stmt → List Expr
  | [] => []
  | statement :: rest => statement.exprs ++ Stmt.allExprs rest

end

/-- The expressions in an item that are no parts of others. -/
def Item.exprs : Item → List Expr
  | .function declaration => Stmt.allExprs declaration.body
  | .statement content => content.exprs

namespace Grammar

/-! ### Order -/

section Order

mutual

theorem IsExpr.ordered {level : Precedence} {tokens : List Token} {expression : Expr} :
    IsExpr level tokens expression → level.level ≤ expression.level.level ∧ expression.Ordered
  | .assignment _ _ value => ⟨Nat.le_refl _, value.ordered⟩
  | @IsExpr.logical level _ _ _ _ operator member left right => by
      have isLevel := ofOperator_of_connectives member
      have loosest : level ≠ .primary := by
        rintro rfl
        cases member
      have leftOrdered := left.ordered
      have rightOrdered := right.ordered
      rw [level_tighter level loosest] at rightOrdered
      simp only [Expr.level, Expr.Ordered, isLevel]
      exact ⟨Nat.le_refl _, leftOrdered.1, rightOrdered.1, leftOrdered.2, rightOrdered.2⟩
  | @IsExpr.binary level _ _ _ _ operator member left right => by
      have isLevel := ofOperator_of_arithmetic member
      have loosest : level ≠ .primary := by
        rintro rfl
        cases member
      have leftOrdered := left.ordered
      have rightOrdered := right.ordered
      rw [level_tighter level loosest] at rightOrdered
      simp only [Expr.level, Expr.Ordered, isLevel]
      exact ⟨Nat.le_refl _, leftOrdered.1, rightOrdered.1, leftOrdered.2, rightOrdered.2⟩
  | .unary _ operand => ⟨Nat.le_refl _, operand.ordered⟩
  | .call _ _ _ arguments => ⟨Nat.le_refl _, arguments.ordered⟩
  | .literal _ | .variable _ => ⟨Nat.le_refl _, trivial⟩
  | .group _ _ inner => ⟨Nat.le_refl _, inner.ordered.2⟩
  | @IsExpr.tighter level _ _ inner => by
      obtain ⟨tight, isOrdered⟩ := inner.ordered
      refine ⟨Nat.le_trans ?_ tight, isOrdered⟩
      by_cases loosest : level = .primary
      · subst loosest
        exact Nat.le_refl _
      · rw [level_tighter level loosest]
        exact Nat.le_succ _

theorem AreArguments.ordered {tokens : List Token} {arguments : List Expr} :
    AreArguments tokens arguments → Expr.AllOrdered arguments
  | .none => trivial
  | .some arguments => arguments.ordered

theorem AreSomeArguments.ordered {tokens : List Token} {arguments : List Expr} :
    AreSomeArguments tokens arguments → Expr.AllOrdered arguments
  | .one argument => ⟨argument.ordered.2, trivial⟩
  | .more argument _ others => ⟨argument.ordered.2, others.ordered⟩

end

variable {loose : Bool} {tokens : List Token}

theorem IsOptional.ordered {expression : Option Expr} (derived : IsOptional tokens expression) :
    ∀ part ∈ expression.toList, part.Ordered := by
  cases derived with
  | none => simp
  | some inner => simpa using inner.ordered.2

theorem IsExprStmt.ordered {statement : ExprStmt} (derived : IsExprStmt tokens statement) :
    statement.expression.Ordered := by
  cases derived with
  | mk expression _ => exact expression.ordered.2

theorem IsVarDecl.ordered {declaration : VarDecl} (derived : IsVarDecl tokens declaration) :
    ∀ part ∈ declaration.exprs, part.Ordered := by
  cases derived with
  | mk _ _ _ initial _ _ =>
      cases initial with
      | none => simp [VarDecl.exprs]
      | some _ expression => simpa [VarDecl.exprs] using expression.ordered.2

theorem IsLoopStart.ordered {start : Option LoopStart} :
    IsLoopStart loose tokens start →
      ∀ part ∈ start.toList.flatMap LoopStart.exprs, part.Ordered
  | .none _ | .omitted _ => by simp
  | .variable declaration => by simpa [LoopStart.exprs] using declaration.ordered
  | .expression statement => by simpa [LoopStart.exprs] using statement.ordered

mutual

theorem IsStmt.ordered {inLoop : Bool} {tokens : List Token} {statement : Stmt} :
    IsStmt loose inLoop tokens statement → ∀ part ∈ statement.exprs, part.Ordered
  | .expression expression => by simpa [Stmt.exprs] using expression.ordered
  | .variable declaration => by simpa [Stmt.exprs] using declaration.ordered
  | .block block => by simpa [Stmt.exprs] using block.ordered
  | .conditional conditional => conditional.ordered
  | .while_ _ _ test _ block => by
      have tested := test.ordered.2
      have body := block.ordered
      simp only [Stmt.exprs, Option.toList, List.flatMap_nil, List.nil_append, List.append_nil,
        List.mem_append, List.mem_singleton]
      rintro part (rfl | within)
      · exact tested
      · exact body part within
  | .for_ _ _ start test _ advance _ block => by
      have started := start.ordered
      have tested := test.ordered
      have advanced := advance.ordered
      have body := block.ordered
      simp only [Stmt.exprs, List.mem_append]
      rintro part (((first | second) | third) | fourth)
      · exact started part first
      · exact tested part second
      · exact advanced part third
      · exact body part fourth
  | .return_ _ value _ => value.ordered
  | .break_ _ _ | .continue_ _ _ => by simp [Stmt.exprs]

theorem AreStmts.ordered {inLoop : Bool} {tokens : List Token} {statements : List Stmt} :
    AreStmts loose inLoop tokens statements → ∀ part ∈ Stmt.allExprs statements, part.Ordered
  | .none => by simp [Stmt.allExprs]
  | .more statement others => by
      have first := statement.ordered
      have later := others.ordered
      simp only [Stmt.allExprs, List.mem_append]
      rintro part (here | there)
      · exact first part here
      · exact later part there

theorem IsBlock.ordered {inLoop : Bool} {tokens : List Token} {block : Token × List Stmt × Token} :
    IsBlock loose inLoop tokens block → ∀ part ∈ Stmt.allExprs block.2.1, part.Ordered
  | .mk _ body _ => body.ordered

theorem IsConditional.ordered {inLoop : Bool} {tokens : List Token} {statement : Stmt} :
    IsConditional loose inLoop tokens statement → ∀ part ∈ statement.exprs, part.Ordered
  | @IsConditional.mk _ _ _ _ _ _ _ _ _ _ _ _ alternative _ _ test _ block chosen => by
      have tested := test.ordered.2
      have body := block.ordered
      have other := chosen.ordered
      cases alternative with
      | none =>
          simp only [Stmt.exprs, List.mem_cons]
          rintro part (rfl | within)
          · exact tested
          · exact body part within
      | some statement =>
          simp only [Stmt.exprs, List.mem_cons, List.mem_append]
          rintro part (rfl | within | beside)
          · exact tested
          · exact body part within
          · exact other statement rfl part beside

theorem IsAlternative.ordered {inLoop : Bool} {tokens : List Token} {alternative : Option Stmt} :
    IsAlternative loose inLoop tokens alternative →
      ∀ statement ∈ alternative, ∀ part ∈ statement.exprs, part.Ordered
  | .none => by simp
  | .block _ block => by
      rintro _ ⟨⟩
      simpa [Stmt.exprs] using block.ordered
  | .conditional _ conditional => by
      rintro _ ⟨⟩
      exact conditional.ordered

end

theorem AreItems.ordered {items : List Item} (derived : AreItems loose tokens items) :
    ∀ part ∈ items.flatMap Item.exprs, part.Ordered := by
  induction derived with
  | none => simp
  | function declaration _ ih =>
      cases declaration with
      | mk _ _ _ _ _ _ block =>
          simp only [List.flatMap_cons, List.mem_append]
          rintro part (here | there)
          · exact block.ordered part here
          · exact ih part there
  | statement statement _ ih =>
      simp only [List.flatMap_cons, List.mem_append]
      rintro part (here | there)
      · exact statement.ordered part here
      · exact ih part there

end Order

end Grammar

end ScriptCompiler
