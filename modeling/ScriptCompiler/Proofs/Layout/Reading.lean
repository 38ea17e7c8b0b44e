import ScriptCompiler.Proofs.Syntax.FittingStatements

/-!
# Trees at other positions

A change of positions moves the tokens of a text to other places, and with them the trees that are
read from them.  Parsers look at the kinds and the lexemes of tokens and never at their positions:
on tokens that have been moved they find the same tree or the same fault, moved in the same way
(`Program.ofTokens_moved`).
-/

namespace ScriptCompiler

/-- A change of positions. -/
abbrev Move := Position → Position

variable (move : Move)

/-- The token at its new position. -/
def Token.moved (token : Token) : Token := { token with position := move token.position }

/-- The identifier at its new position. -/
def Identifier.moved (identifier : Identifier) : Identifier := ⟨identifier.token.moved move⟩

mutual

/-- The expression at its new positions. -/
def Expr.moved : Expr → Expr
  | .literal token value => .literal (token.moved move) value
  | .variable identifier => .variable (identifier.moved move)
  | .binary left operator right => .binary left.moved (operator.moved move) right.moved
  | .logical left operator right => .logical left.moved (operator.moved move) right.moved
  | .unary operator operand => .unary (operator.moved move) operand.moved
  | .assignment target operator value =>
      .assignment (target.moved move) (operator.moved move) value.moved
  | .call callee arguments closing =>
      .call (callee.moved move) (Expr.movedAll arguments) (closing.moved move)
  | .group opening inner closing => .group (opening.moved move) inner.moved (closing.moved move)

/-- The expressions at their new positions. -/
def Expr.movedAll : List Expr → List Expr
  | [] => []
  | first :: rest => first.moved :: Expr.movedAll rest

end

/-- The statement at its new positions. -/
def ExprStmt.moved (statement : ExprStmt) : ExprStmt :=
  ⟨statement.expression.moved move, statement.semicolon.moved move⟩

/-- The declaration at its new positions. -/
def VarDecl.moved (declaration : VarDecl) : VarDecl :=
  { first := move declaration.first
    name := declaration.name.moved move
    type := declaration.type.map (Identifier.moved move)
    initial := declaration.initial.map (Expr.moved move)
    semicolon := declaration.semicolon.moved move }

/-- The start of a loop at its new positions. -/
def LoopStart.moved : LoopStart → LoopStart
  | .variable declaration => .variable (declaration.moved move)
  | .expression statement => .expression (statement.moved move)

mutual

/-- The statement at its new positions. -/
def Stmt.moved : Stmt → Stmt
  | .expression statement => .expression (statement.moved move)
  | .variable declaration => .variable (declaration.moved move)
  | .block opening body closing =>
      .block (opening.moved move) (Stmt.movedAll body) (closing.moved move)
  | .conditional first condition opening consequent closing alternative =>
      .conditional (move first) (condition.moved move) (opening.moved move)
        (Stmt.movedAll consequent) (closing.moved move)
        (match alternative with
          | none => none
          | some statement => some statement.moved)
  | .loop keyword start condition advance opening body closing =>
      .loop (keyword.moved move) (start.map (LoopStart.moved move))
        (condition.map (Expr.moved move))
        (advance.map (Expr.moved move)) (opening.moved move) (Stmt.movedAll body)
          (closing.moved move)
  | .return_ first value semicolon =>
      .return_ (move first) (value.map (Expr.moved move)) (semicolon.moved move)
  | .break_ keyword => .break_ (keyword.moved move)
  | .continue_ keyword => .continue_ (keyword.moved move)
  | .function first => .function (move first)

/-- The statements at their new positions. -/
def Stmt.movedAll : List Stmt → List Stmt
  | [] => []
  | first :: rest => first.moved :: Stmt.movedAll rest

end

/-- The parameter at its new positions. -/
def Param.moved (param : Param) : Param := ⟨param.name.moved move, param.type.moved move⟩

/-- The declaration at its new positions. -/
def FunctionDecl.moved (declaration : FunctionDecl) : FunctionDecl :=
  { first := move declaration.first
    name := declaration.name.moved move
    params := declaration.params.map (Param.moved move)
    result := declaration.result.map (Identifier.moved move)
    opening := declaration.opening.moved move
    body := Stmt.movedAll move declaration.body
    closing := declaration.closing.moved move }

/-- The item at its new positions. -/
def Item.moved : Item → Item
  | .function declaration => .function (declaration.moved move)
  | .statement content => .statement (content.moved move)

/-- The program at its new positions. -/
def Program.moved (program : Program) : Program :=
  { program with items := program.items.map (Item.moved move), last := move program.last }

/-- The error at its new position. -/
def SyntaxError.moved (error : SyntaxError) : SyntaxError :=
  { error with token := error.token.map (Token.moved move) }

/-- The diagnostic at its new position. -/
def Diagnostic.moved (diagnostic : Diagnostic) : Diagnostic :=
  { diagnostic with position := move diagnostic.position }

variable {move}

@[simp]
theorem Token.kind_moved (token : Token) : (token.moved move).kind = token.kind := rfl

@[simp]
theorem Token.lexeme_moved (token : Token) : (token.moved move).lexeme = token.lexeme := rfl

@[simp]
theorem Identifier.name_moved (identifier : Identifier) :
    (identifier.moved move).name = identifier.name := rfl

@[simp]
theorem Identifier.first_moved (identifier : Identifier) :
    (identifier.moved move).first = move identifier.first := rfl

@[simp]
theorem Expr.movedAll_eq (expressions : List Expr) :
    Expr.movedAll move expressions = expressions.map (Expr.moved move) := by
  induction expressions with
  | nil => rfl
  | cons first rest ih => rw [Expr.movedAll, ih, List.map_cons]

@[simp]
theorem Stmt.movedAll_eq (statements : List Stmt) :
    Stmt.movedAll move statements = statements.map (Stmt.moved move) := by
  induction statements with
  | nil => rfl
  | cons first rest ih => rw [Stmt.movedAll, ih, List.map_cons]

@[simp]
theorem Expr.first_moved (expression : Expr) :
    (expression.moved move).first = move expression.first := by
  induction expression using Expr.first.induct <;> simp_all [Expr.moved, Expr.first, Token.moved]

theorem Program.functions_moved (program : Program) :
    (program.moved move).functions = program.functions.map (FunctionDecl.moved move) := by
  simp only [functions, moved, List.filterMap_map, List.map_filterMap]
  refine List.filterMap_congr fun item _ => ?_
  cases item <;> rfl

theorem Program.statements_moved (program : Program) :
    (program.moved move).statements = program.statements.map (Stmt.moved move) := by
  simp only [statements, moved, List.filterMap_map, List.map_filterMap]
  refine List.filterMap_congr fun item _ => ?_
  cases item <;> rfl

namespace Parser

open Grammar

variable {α β : Type}

/-- What comes out of a parser, at its new positions. -/
def movedOutcome (move : Move) (convert : α → β) :
    Except SyntaxError (α × List Token) → Except SyntaxError (β × List Token)
  | .ok (value, rest) => .ok (convert value, rest.map (Token.moved move))
  | .error error => .error (error.moved move)

/-- On tokens that have been moved, one parser finds what another one finds on the tokens
themselves, moved. -/
def Tracks (move : Move) (convert : α → β) (first : Parser α) (second : Parser β)
    (tokens : List Token) : Prop :=
  second (tokens.map (Token.moved move)) = movedOutcome move convert (first tokens)

namespace Tracks

variable {convert : α → α} {first second : Parser α} {tokens : List Token}

theorem pure (value : α) : Tracks move convert (Pure.pure value)
    (Pure.pure (convert value)) tokens :=
  rfl

theorem bind {convert' : β → β} {next later : α → Parser β}
    (tracks : Tracks move convert first second tokens)
    (goesOn : ∀ value rest, Tracks move convert' (next value) (later (convert value)) rest) :
    Tracks move convert' (first >>= next) (second >>= later) tokens := by
  unfold Tracks at tracks goesOn ⊢
  simp only [Bind.bind, StateT.bind, Except.bind, tracks]
  rcases first tokens with error | ⟨value, rest⟩
  · rfl
  · exact goesOn value rest

theorem map {convert' : β → β} {change : α → β} (tracks : Tracks move convert first second tokens)
    (commutes : ∀ value, change (convert value) = convert' (change value)) :
    Tracks move convert' (change <$> first) (change <$> second) tokens := by
  rw [map_eq_pure_bind, map_eq_pure_bind]
  refine tracks.bind fun value rest => ?_
  rw [commutes]
  exact pure (change value)

theorem ite {test : Prop} [Decidable test] {other another : Parser α}
    (chosen : Tracks move convert first second tokens)
    (rejected : Tracks move convert other another tokens) :
    Tracks move convert (if test then first else other) (if test then second else another)
      tokens := by
  split
  · exact chosen
  · exact rejected

theorem failHere (fault : SyntaxFault) :
    Tracks move convert (Parser.failHere fault) (Parser.failHere fault) tokens := by
  cases tokens <;> rfl

theorem upcoming_moved : upcoming (tokens.map (Token.moved move)) = upcoming tokens := by
  cases tokens <;> rfl

/-- A parser that looks at the kind of the next token first. -/
theorem peek {next later : TokenKind → Parser α}
    (tracks : ∀ kind, Tracks move convert (next kind) (later kind) tokens) :
    Tracks move convert (Parser.peek >>= next) (Parser.peek >>= later) tokens := by
  have same := tracks (upcoming tokens)
  unfold Tracks at same ⊢
  rw [peek_bind, peek_bind, upcoming_moved, same]

/-- What parsers do behind a token that they have taken. -/
theorem behind {inner other : Parser α} {token : Token} {rest : List Token}
    (same : first (token :: rest) = inner rest)
    (moved : second (token.moved move :: rest.map (Token.moved move)) =
      other (rest.map (Token.moved move))) (tracks : Tracks move convert inner other rest) :
    Tracks move convert first second (token :: rest) := by
  unfold Tracks at tracks ⊢
  rw [List.map_cons, moved, same, tracks]

/-- Parsers that leave to others what they do with their tokens. -/
theorem congr {inner other : Parser α} (tracks : Tracks move convert inner other tokens)
    (same : first tokens = inner tokens)
    (moved : second (tokens.map (Token.moved move)) = other (tokens.map (Token.moved move))) :
    Tracks move convert first second tokens := by
  unfold Tracks at tracks ⊢
  rw [moved, same, tracks]

end Tracks

section Tokens

variable {tokens : List Token}

theorem tracks_take (kind : TokenKind) (what : Bytes) :
    Tracks move (Token.moved move) (take kind what) (take kind what) tokens := by
  cases tokens with
  | nil => rfl
  | cons token rest =>
      by_cases isKind : (token.kind == kind) = true <;>
        simp [Tracks, take, isKind, movedOutcome, SyntaxError.moved]

theorem tracks_skip (kind : TokenKind) : Tracks move id (skip kind) (skip kind) tokens := by
  cases tokens with
  | nil => rfl
  | cons token rest =>
      by_cases isKind : (token.kind == kind) = true <;>
        simp [Tracks, skip, isKind, movedOutcome]

theorem tracks_identifier (what : Bytes) :
    Tracks move (Identifier.moved move) (identifier what) (identifier what) tokens :=
  (tracks_take .identifier what).bind fun _ _ => .pure _

/-- A literal has the same value everywhere. -/
theorem literal_moved (token : Token) (rest : List Token) :
    (literal (token.moved move)).map (fun expression => (expression, rest.map (Token.moved move))) =
      movedOutcome move (Expr.moved move)
        ((literal token).map fun expression => (expression, rest)) := by
  unfold literal
  simp only [Token.kind_moved, Token.lexeme_moved]
  split
  · split <;> rfl
  · split <;> rfl
  · rfl
  · rfl

end Tokens

/-! ### Expressions -/

/-- The parsers of expressions within a depth track themselves. -/
structure TrackExprs (move : Move) (depth : Nat) : Prop where
  operand : ∀ {weakest : Precedence} {tokens : List Token}, 1 ≤ weakest.level →
    Tracks move (Expr.moved move) (operandWithin depth weakest) (operandWithin depth weakest) tokens
  operators : ∀ {weakest : Precedence} {left : Expr} {tokens : List Token}, 1 ≤ weakest.level →
    Tracks move (Expr.moved move) (operatorsWithin depth weakest left)
      (operatorsWithin depth weakest (left.moved move)) tokens
  primary : ∀ {tokens : List Token},
    Tracks move (Expr.moved move) (primaryWithin depth) (primaryWithin depth) tokens
  operator : ∀ {left : Expr} {tokens : List Token}, 1 ≤ upcomingLevel tokens →
    Tracks move (Expr.moved move) (operatorWithin depth left)
      (operatorWithin depth (left.moved move)) tokens
  arguments : ∀ {tokens : List Token},
    Tracks move (List.map (Expr.moved move)) (argumentsWithin depth) (argumentsWithin depth) tokens

namespace TrackExprs

variable {depth : Nat} {tokens : List Token} {weakest : Precedence} {left : Expr}

theorem operand_succ (within : TrackExprs move depth) (binds : 1 ≤ weakest.level) :
    Tracks move (Expr.moved move) (operandWithin (depth + 1) weakest)
      (operandWithin (depth + 1) weakest) tokens := by
  rw [operandWithin]
  exact within.primary.bind fun _ _ => within.operators binds

theorem operators_succ (within : TrackExprs move depth) (binds : 1 ≤ weakest.level) :
    Tracks move (Expr.moved move) (operatorsWithin (depth + 1) weakest left)
      (operatorsWithin (depth + 1) weakest (left.moved move)) tokens := by
  have same := @Tracks.upcoming_moved move tokens
  rw [operatorsWithin, operatorsWithin]
  -- The test looks at the next token, which an operator needs to be tracked.
  by_cases reaches : weakest.level ≤ upcomingLevel tokens
  · have goesOn := (@TrackExprs.operator _ _ within left _ (Nat.le_trans binds reaches)).bind
      fun _ _ => @TrackExprs.operators _ _ within weakest _ _ binds
    refine goesOn.congr ?_ ?_
    · rw [peek_bind]
      exact congrFun (if_pos reaches) tokens
    · rw [peek_bind, same]
      exact congrFun (if_pos reaches) _
  · refine (Tracks.pure left).congr ?_ ?_
    · rw [peek_bind]
      exact congrFun (if_neg reaches) tokens
    · rw [peek_bind, same]
      exact congrFun (if_neg reaches) _

theorem primary_succ (within : TrackExprs move depth) :
    Tracks move (Expr.moved move) (primaryWithin (depth + 1)) (primaryWithin (depth + 1))
      tokens := by
  cases tokens with
  | nil => rw [Tracks, List.map_nil, primaryWithin_nil]; rfl
  | cons token rest =>
      by_cases listed : token.kind ∈ literalKinds
      · rw [Tracks, List.map_cons, primaryWithin_literal listed,
          primaryWithin_literal (by exact listed)]
        exact literal_moved token rest
      by_cases isName : token.kind = .identifier
      · rw [Tracks, List.map_cons, primaryWithin_variable isName,
          primaryWithin_variable (by exact isName)]
        rfl
      by_cases isOpening : token.kind = .leftParen
      · exact .behind (primaryWithin_group isOpening) (primaryWithin_group isOpening)
          ((within.operand (by decide)).bind fun _ _ => (tracks_take .rightParen _).bind fun _ _ =>
            .pure _)
      by_cases isOperator : token.kind = .minus ∨ token.kind = .bang
      · exact .behind (primaryWithin_unary isOperator) (primaryWithin_unary isOperator)
          ((within.operand (by decide)).bind fun _ _ => .pure _)
      · rw [Tracks, List.map_cons, primaryWithin_other listed isName isOpening isOperator,
          primaryWithin_other (by exact listed) (by exact isName) (by exact isOpening)
            (by exact isOperator)]
        rfl

/-- What is no name is none at another position. -/
theorem moved_ne_variable (noName : ∀ target, left ≠ .variable target) (target : Identifier) :
    left.moved move ≠ .variable target := by
  cases left with
  | «variable» identifier => exact absurd rfl (noName identifier)
  | _ => simp [Expr.moved]

theorem operator_succ (within : TrackExprs move depth) (binds : 1 ≤ upcomingLevel tokens) :
    Tracks move (Expr.moved move) (operatorWithin (depth + 1) left)
      (operatorWithin (depth + 1) (left.moved move)) tokens := by
  cases tokens with
  | nil => exact absurd binds (by decide)
  | cons operator rest =>
      rcases operator_cases binds with assigns | member | calls | member
      · by_cases isName : ∃ target, left = .variable target
        · obtain ⟨target, rfl⟩ := isName
          exact .behind (operatorWithin_assignment assigns) (operatorWithin_assignment assigns)
            ((within.operand (by decide)).bind fun _ _ => .pure _)
        · have noName := not_exists.mp isName
          rw [Tracks, List.map_cons, operatorWithin_noTarget assigns noName,
            operatorWithin_noTarget (by exact assigns) (moved_ne_variable noName)]
          rfl
      · exact .behind (operatorWithin_logical member) (operatorWithin_logical member)
          ((within.operand (isOperandLevel_tighter (.inr member)).1).bind fun _ _ => .pure _)
      · by_cases isName : ∃ callee, left = .variable callee
        · obtain ⟨callee, rfl⟩ := isName
          have arguments : Tracks move (List.map (Expr.moved move)) (argumentList depth)
              (argumentList depth) rest :=
            .peek fun kind => .ite (.pure []) within.arguments
          refine .behind (operatorWithin_call calls) (operatorWithin_call calls)
            (arguments.bind fun _ _ => (tracks_take .rightParen _).bind fun _ _ => ?_)
          rw [← Expr.movedAll_eq]
          exact .pure _
        · have noName := not_exists.mp isName
          rw [Tracks, List.map_cons, operatorWithin_noCallee calls noName,
            operatorWithin_noCallee (by exact calls) (moved_ne_variable noName)]
          rfl
      · exact .behind (operatorWithin_binary member) (operatorWithin_binary member)
          ((within.operand (isOperandLevel_tighter (.inl member)).1).bind fun _ _ => .pure _)

theorem arguments_succ (within : TrackExprs move depth) :
    Tracks move (List.map (Expr.moved move)) (argumentsWithin (depth + 1))
      (argumentsWithin (depth + 1)) tokens := by
  rw [argumentsWithin]
  exact (within.operand (by decide)).bind fun _ _ => (tracks_skip .comma).bind fun _ _ =>
    .ite (within.arguments.bind fun _ _ => .pure _) (.pure _)

end TrackExprs

theorem trackExprs (move : Move) (depth : Nat) : TrackExprs move depth := by
  induction depth with
  | zero =>
      exact ⟨fun _ => .failHere _, fun _ => .failHere _, .failHere _, fun _ => .failHere _,
        .failHere _⟩
  | succ depth within =>
      exact
        { operand := within.operand_succ
          operators := within.operators_succ
          primary := within.primary_succ
          operator := within.operator_succ
          arguments := within.arguments_succ }

theorem tracks_expression {tokens : List Token} :
    Tracks move (Expr.moved move) expression expression tokens := by
  refine ((trackExprs move (4 * tokens.length + 4)).operand (by decide)).congr rfl ?_
  rw [expression, List.length_map]

/-! ### Statements -/

section Clauses

variable {tokens : List Token}

theorem tracks_expressionUnless (kind : TokenKind) :
    Tracks move (Option.map (Expr.moved move)) (expressionUnless kind)
      (expressionUnless kind) tokens :=
  .peek fun _ => .ite (.pure _) (tracks_expression.bind fun _ _ => .pure _)

theorem tracks_expressionStatement :
    Tracks move (ExprStmt.moved move) expressionStatement expressionStatement tokens :=
  tracks_expression.bind fun _ _ => (tracks_take _ _).bind fun _ _ => .pure _

theorem tracks_declaredType :
    Tracks move (Option.map (Identifier.moved move)) declaredType declaredType tokens :=
  (tracks_skip .colon).bind fun _ _ => .ite ((tracks_identifier _).bind fun _ _ => .pure _)
    (.peek fun _ => .ite ((tracks_identifier _).bind fun _ _ => .pure _) (.pure _))

theorem tracks_declarationEnd (keyword : Token) (name : Identifier) (type : Option Identifier) :
    Tracks move (VarDecl.moved move) (declarationEnd keyword name type)
      (declarationEnd (keyword.moved move) (name.moved move) (type.map (Identifier.moved move)))
      tokens := by
  have ending : ∀ {rest} (initial : Option Expr), Tracks move (VarDecl.moved move) (do
      if type.isNone && initial.isNone then failHere (.typeOrValueExpected name.name)
      let semicolon ← take .semicolon "';' after variable declaration"
      return ⟨keyword.position, name, type, initial, semicolon⟩ : Parser VarDecl) (do
      if (type.map (Identifier.moved move)).isNone && (initial.map (Expr.moved move)).isNone then
        failHere (.typeOrValueExpected name.name)
      let semicolon ← take .semicolon "';' after variable declaration"
      return ⟨(keyword.moved move).position, name.moved move, type.map (Identifier.moved move),
        initial.map (Expr.moved move), semicolon⟩ : Parser VarDecl) rest := by
    intro rest initial
    rw [Option.isNone_map, Option.isNone_map]
    exact .ite (.failHere _) ((tracks_take .semicolon _).bind fun _ _ => .pure _)
  have given : ∀ {rest}, Tracks move (Option.map (Expr.moved move)) (some <$> expression)
      (some <$> expression) rest := tracks_expression.map fun _ => rfl
  have absent : ∀ {rest}, Tracks move (Option.map (Expr.moved move)) (pure none) (pure none) rest :=
    .pure none
  exact (tracks_skip .assign).bind fun _ _ =>
    .ite (given.bind fun initial _ => ending initial) (absent.bind fun initial _ => ending initial)

theorem tracks_variableDeclaration :
    Tracks move (VarDecl.moved move) variableDeclaration variableDeclaration tokens := by
  rw [variableDeclaration_eq]
  exact (tracks_take .varKeyword _).bind fun _ _ => (tracks_identifier _).bind fun _ _ =>
    tracks_declaredType.bind fun _ _ => tracks_declarationEnd _ _ _

theorem tracks_condition (keyword : Bytes) :
    Tracks move (Expr.moved move) (condition keyword) (condition keyword) tokens :=
  (tracks_take .leftParen _).bind fun _ _ => tracks_expression.bind fun _ _ =>
    (tracks_take .rightParen _).bind fun _ _ => .pure _

theorem tracks_loopStart :
    Tracks move (Option.map (LoopStart.moved move)) loopStart loopStart tokens :=
  (tracks_skip .semicolon).bind fun _ _ => .ite (.pure _) (.peek fun _ => .ite
    (tracks_variableDeclaration.bind fun _ _ => .pure _)
    (tracks_expressionStatement.bind fun _ _ => .pure _))

theorem tracks_returnStatement :
    Tracks move (Stmt.moved move) returnStatement returnStatement tokens :=
  (tracks_take .returnKeyword _).bind fun _ _ => (tracks_expressionUnless _).bind fun _ _ =>
    (tracks_take .semicolon _).bind fun _ _ => .pure _

theorem tracks_jumpStatement (inLoop : Bool) :
    Tracks move (Stmt.moved move) (jumpStatement inLoop) (jumpStatement inLoop) tokens := by
  cases tokens with
  | nil => rfl
  | cons keyword rest =>
      cases inLoop with
      | false => rfl
      | true =>
          refine .behind rfl rfl ((tracks_take .semicolon _).bind fun _ _ => ?_)
          rw [Token.kind_moved]
          split
          · exact .pure (Stmt.break_ keyword)
          · exact .pure (Stmt.continue_ keyword)

end Clauses

/-- The parts of a block at their new positions. -/
def movedBlock (move : Move) (parts : Token × List Stmt × Token) : Token × List Stmt × Token :=
  (parts.1.moved move, Stmt.movedAll move parts.2.1, parts.2.2.moved move)

/-- The parsers of statements within a depth track themselves. -/
structure TrackStmts (move : Move) (depth : Nat) : Prop where
  statement : ∀ {tokens : List Token} (inLoop : Bool),
    Tracks move (Stmt.moved move) (statementWithin depth inLoop)
      (statementWithin depth inLoop) tokens
  statements : ∀ {tokens : List Token} (inLoop : Bool),
    Tracks move (Stmt.movedAll move) (statementsWithin depth inLoop) (statementsWithin depth inLoop)
      tokens
  block : ∀ {tokens : List Token} (inLoop : Bool),
    Tracks move (movedBlock move) (blockWithin depth inLoop) (blockWithin depth inLoop) tokens
  conditional : ∀ {tokens : List Token} (inLoop : Bool),
    Tracks move (Stmt.moved move) (conditionalWithin depth inLoop) (conditionalWithin depth inLoop)
      tokens
  while_ : ∀ {tokens : List Token},
    Tracks move (Stmt.moved move) (whileWithin depth) (whileWithin depth) tokens
  for_ : ∀ {tokens : List Token},
    Tracks move (Stmt.moved move) (forWithin depth) (forWithin depth) tokens

namespace TrackStmts

variable {depth : Nat} {tokens : List Token} {inLoop : Bool}

theorem statement_succ (within : TrackStmts move depth) :
    Tracks move (Stmt.moved move) (statementWithin (depth + 1) inLoop)
      (statementWithin (depth + 1) inLoop) tokens := by
  rw [statementWithin]
  refine .peek fun _ => ?_
  split
  · exact tracks_variableDeclaration.bind fun _ _ => .pure _
  · exact within.conditional inLoop
  · exact within.while_
  · exact within.for_
  · exact tracks_returnStatement
  · exact tracks_jumpStatement inLoop
  · exact tracks_jumpStatement inLoop
  · exact (within.block inLoop).bind fun _ _ => .pure _
  · exact .failHere _
  · exact tracks_expressionStatement.bind fun _ _ => .pure _

theorem statements_succ (within : TrackStmts move depth) :
    Tracks move (Stmt.movedAll move) (statementsWithin (depth + 1) inLoop)
      (statementsWithin (depth + 1) inLoop) tokens := by
  rw [statementsWithin]
  exact .peek fun _ => .ite (.pure _) ((within.statement inLoop).bind fun _ _ =>
    (within.statements inLoop).bind fun _ _ => .pure _)

theorem block_succ (within : TrackStmts move depth) :
    Tracks move (movedBlock move) (blockWithin (depth + 1) inLoop) (blockWithin (depth + 1) inLoop)
      tokens := by
  rw [blockWithin]
  exact (tracks_take .leftBrace _).bind fun _ _ => (within.statements inLoop).bind fun _ _ =>
    (tracks_take .rightBrace _).bind fun _ _ => .pure _

theorem conditional_succ (within : TrackStmts move depth) :
    Tracks move (Stmt.moved move) (conditionalWithin (depth + 1) inLoop)
      (conditionalWithin (depth + 1) inLoop) tokens := by
  rw [conditionalWithin]
  exact (tracks_take .ifKeyword _).bind fun _ _ => (tracks_condition _).bind fun _ _ =>
    (within.block inLoop).bind fun _ _ => (tracks_skip .elseKeyword).bind fun _ _ =>
      .ite (.peek fun _ => .ite ((within.conditional inLoop).bind fun _ _ => .pure _)
        ((within.block inLoop).bind fun _ _ => .pure _)) (.pure _)

theorem while_succ (within : TrackStmts move depth) :
    Tracks move (Stmt.moved move) (whileWithin (depth + 1)) (whileWithin (depth + 1)) tokens := by
  rw [whileWithin]
  exact (tracks_take .whileKeyword _).bind fun _ _ => (tracks_condition _).bind fun _ _ =>
    (within.block true).bind fun _ _ => .pure _

theorem for_succ (within : TrackStmts move depth) :
    Tracks move (Stmt.moved move) (forWithin (depth + 1)) (forWithin (depth + 1)) tokens := by
  rw [forWithin]
  exact (tracks_take .forKeyword _).bind fun _ _ => (tracks_take .leftParen _).bind fun _ _ =>
    tracks_loopStart.bind fun _ _ => (tracks_expressionUnless _).bind fun _ _ =>
      (tracks_take .semicolon _).bind fun _ _ => (tracks_expressionUnless _).bind fun _ _ =>
        (tracks_take .rightParen _).bind fun _ _ => (within.block true).bind fun _ _ => .pure _

end TrackStmts

theorem trackStmts (move : Move) (depth : Nat) : TrackStmts move depth := by
  induction depth with
  | zero =>
      exact ⟨fun _ => .failHere _, fun _ => .failHere _, fun _ => .failHere _, fun _ => .failHere _,
        .failHere _, .failHere _⟩
  | succ depth within =>
      exact
        { statement := fun _ => within.statement_succ
          statements := fun _ => within.statements_succ
          block := fun _ => within.block_succ
          conditional := fun _ => within.conditional_succ
          while_ := within.while_succ
          for_ := within.for_succ }

section Items

variable {tokens : List Token}

theorem tracks_statement : Tracks move (Stmt.moved move) statement statement tokens := by
  refine ((trackStmts move (4 * tokens.length + 4)).statement false).congr rfl ?_
  rw [statement, List.length_map]

theorem tracks_block : Tracks move (movedBlock move) block block tokens := by
  refine ((trackStmts move (4 * tokens.length + 4)).block false).congr rfl ?_
  rw [block, List.length_map]

theorem tracks_param : Tracks move (Param.moved move) param param tokens :=
  (tracks_identifier _).bind fun _ _ => (tracks_skip .colon).bind fun _ _ =>
    (tracks_identifier _).bind fun _ _ => .pure _

theorem tracks_paramsWithin {count : Nat} :
    Tracks move (List.map (Param.moved move)) (paramsWithin count) (paramsWithin count) tokens := by
  induction count generalizing tokens with
  | zero => exact .failHere _
  | succ count ih =>
      rw [paramsWithin]
      exact tracks_param.bind fun _ _ => (tracks_skip .comma).bind fun _ _ =>
        .ite (ih.bind fun _ _ => .pure _) (.pure _)

theorem tracks_params : Tracks move (List.map (Param.moved move)) params params tokens := by
  refine .peek fun _ => .ite (.pure _) ?_
  refine (@tracks_paramsWithin move tokens (tokens.length + 1)).congr rfl ?_
  rw [← @List.length_map _ _ tokens (Token.moved move)]
  rfl

theorem tracks_functionDeclaration :
    Tracks move (FunctionDecl.moved move) functionDeclaration functionDeclaration tokens := by
  have result : ∀ {tokens}, Tracks move (Option.map (Identifier.moved move)) resultType resultType
      tokens :=
    .peek fun _ => .ite ((tracks_identifier _).map fun _ => rfl) (.pure _)
  have body : ∀ {make make' tokens}, (∀ parts, make' (movedBlock move parts) =
      FunctionDecl.moved move (make parts)) →
      Tracks move (FunctionDecl.moved move) (functionBody make) (functionBody make') tokens := by
    intro make make' tokens agree
    refine .peek fun _ => .ite (.failHere _) (tracks_block.bind fun parts _ => ?_)
    rw [agree]
    exact .pure _
  rw [functionDeclaration_eq]
  exact (tracks_take .funcKeyword _).bind fun _ _ => (tracks_identifier _).bind fun _ _ =>
    (tracks_take .leftParen _).bind fun _ _ => tracks_params.bind fun _ _ =>
      (tracks_take .rightParen _).bind fun _ _ => result.bind fun _ _ => body fun _ => rfl

theorem tracks_itemsWithin {count : Nat} :
    Tracks move (List.map (Item.moved move)) (itemsWithin count) (itemsWithin count) tokens := by
  induction count generalizing tokens with
  | zero => exact .failHere _
  | succ count ih =>
      have single : ∀ next, Tracks move (Item.moved move) (item next) (item next) tokens :=
        fun next =>
        .ite (tracks_functionDeclaration.map fun _ => rfl) (tracks_statement.map fun _ => rfl)
      rw [itemsWithin_succ]
      exact .peek fun _ => .ite (.pure _) ((single _).bind fun _ _ => ih.bind fun _ _ => .pure _)

theorem tracks_items : Tracks move (List.map (Item.moved move)) items items tokens := by
  refine (@tracks_itemsWithin move tokens (tokens.length + 1)).congr rfl ?_
  rw [items, List.length_map]

end Items

end Parser

/-- The text of a syntax error does not depend on positions. -/
theorem SyntaxError.message_moved (error : SyntaxError) :
    (error.moved move).message = error.message := by
  have described : ∀ token : Option Token,
      describe (token.map (Token.moved move)) = describe token := by
    intro token
    cases token <;> rfl
  simp only [message, moved, described]

namespace Program

theorem content_moved (tokens : List Token) :
    content (tokens.map (Token.moved move)) = (content tokens).map (Token.moved move) :=
  List.takeWhile_map ..

/-- Where the input ends with a token of its own, its end is moved like that token. -/
theorem ending_moved {tokens : List Token} (ends : ∃ token ∈ tokens, token.kind = .eof) :
    ending (tokens.map (Token.moved move)) = move (ending tokens) := by
  have found : (tokens.find? fun token => token.kind == .eof).isSome := by
    obtain ⟨token, member, isEnd⟩ := ends
    exact List.find?_isSome.mpr ⟨token, member, beq_iff_eq.mpr isEnd⟩
  obtain ⟨token, isFirst⟩ := Option.isSome_iff_exists.mp found
  have moved : (tokens.map (Token.moved move)).find? (fun token => token.kind == .eof) =
      some (token.moved move) := by
    rw [List.find?_map]
    exact congrArg (Option.map (Token.moved move)) isFirst
  rw [ending, ending, moved, isFirst]
  rfl

/-- **Reading does not look at positions.**  From tokens that have been moved, the same program is
read or the same diagnostic raised, moved in the same way. -/
theorem ofTokens_moved {tokens : List Token} (ends : ∃ token ∈ tokens, token.kind = .eof)
    (origin : Origin) :
    ofTokens origin (tokens.map (Token.moved move)) =
      match ofTokens origin tokens with
      | .ok program => .ok (program.moved move)
      | .error diagnostic => .error (diagnostic.moved move) := by
  have tracks := @Parser.tracks_items move (content tokens)
  rw [Parser.Tracks, ← content_moved] at tracks
  rw [ofTokens, ofTokens, tracks]
  rcases Parser.items (content tokens) with error | ⟨items, rest⟩
  · simp only [Parser.movedOutcome, diagnostic, SyntaxError.message_moved, ending_moved ends,
      Diagnostic.moved]
    cases token : error.token <;> simp [SyntaxError.moved, token, Token.moved]
  · simp only [Parser.movedOutcome, ending_moved ends, moved]

end Program

end ScriptCompiler
