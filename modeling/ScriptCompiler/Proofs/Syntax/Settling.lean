import ScriptCompiler.Proofs.Syntax.FittingStatements

/-!
# The bounds on the depth are never reached

Between two tokens that it takes, a parser goes at most four calls deeper.  So on tokens of a number
`n` the depth `4 * n + 4` is enough, and a parser that starts with it fails only for a reason of the
grammar (`settles_items`).
-/

namespace ScriptCompiler.Parser

open Grammar

variable {α β : Type}

/-- On some input a parser takes a number of tokens at least, and does not run out of depth. -/
structure Settles (parser : Parser α) (taken : Nat) (tokens : List Token) : Prop where
  takes : ∀ value rest, parser tokens = .ok (value, rest) → rest.length + taken ≤ tokens.length
  uncut : ∀ error, parser tokens = .error error → error.fault ≠ .tooDeep

namespace Settles

variable {parser : Parser α} {taken : Nat} {tokens : List Token}

theorem pure (value : α) : Settles (Pure.pure value) 0 tokens where
  takes := by
    rintro result rest ⟨⟩
    exact Nat.le_refl _
  uncut := by
    rintro error ⟨⟩

theorem bind {next : α → Parser β} (first : Settles parser taken tokens)
    (second : ∀ value rest, rest.length + taken ≤ tokens.length → Settles (next value) 0 rest) :
    Settles (parser >>= next) taken tokens where
  takes := by
    intro result rest run
    obtain ⟨value, middle, firstRun, secondRun⟩ := bind_eq_ok.mp run
    have shorter := first.takes value middle firstRun
    have shortest := (second value middle shorter).takes result rest secondRun
    omega
  uncut := by
    intro error run
    rcases bind_eq_error.mp run with early | ⟨value, middle, firstRun, late⟩
    · exact first.uncut error early
    · exact (second value middle (first.takes value middle firstRun)).uncut error late

/-- A parser that takes some tokens takes any. -/
theorem any (settles : Settles parser taken tokens) : Settles parser 0 tokens where
  takes value rest run := by
    have shorter := settles.takes value rest run
    omega
  uncut := settles.uncut

theorem failHere (fault : SyntaxFault) (known : fault ≠ .tooDeep) :
    Settles (Parser.failHere fault : Parser α) taken tokens where
  takes := by
    rintro value rest ⟨⟩
  uncut := by
    rintro error ⟨⟩
    exact known

theorem peek {next : TokenKind → Parser α}
    (settles : Settles (next (upcoming tokens)) taken tokens) :
    Settles (Parser.peek >>= next) taken tokens := ⟨settles.takes, settles.uncut⟩

theorem ite {test : Prop} [Decidable test] {other : Parser α} (first : Settles parser taken tokens)
    (second : Settles other taken tokens) :
    Settles (if test then parser else other) taken tokens := by
  split
  · exact first
  · exact second

theorem map (change : α → β) (settles : Settles parser taken tokens) :
    Settles (change <$> parser) taken tokens := by
  rw [map_eq_pure_bind]
  exact settles.bind fun value _ _ => pure (change value)

/-- What a parser does behind a token that it has taken. -/
theorem behind {inner : Parser α} {token : Token} {rest : List Token}
    (settles : Settles inner 0 rest) (same : parser (token :: rest) = inner rest) :
    Settles parser 1 (token :: rest) where
  takes := by
    intro value last run
    exact Nat.succ_le_succ (settles.takes value last (same ▸ run))
  uncut error run := settles.uncut error (same ▸ run)

theorem of_ok {token : Token} {rest : List Token} {value : α}
    (takes : parser (token :: rest) = .ok (value, rest)) : Settles parser 1 (token :: rest) where
  takes := by
    intro other last run
    rw [takes] at run
    cases run
    exact Nat.le_refl _
  uncut := by
    intro error run
    rw [takes] at run
    cases run

theorem of_error {fault : SyntaxFault} {token : Option Token}
    (fails : parser tokens = .error ⟨fault, token⟩) (known : fault ≠ .tooDeep) :
    Settles parser taken tokens where
  takes := by
    intro value rest run
    rw [fails] at run
    cases run
  uncut := by
    intro error run
    rw [fails] at run
    cases run
    exact known

end Settles

section Tokens

variable {tokens : List Token}

theorem settles_take (kind : TokenKind) (what : Bytes) : Settles (take kind what) 1 tokens := by
  cases tokens with
  | nil => exact .of_error rfl (by simp)
  | cons token rest =>
      by_cases isKind : (token.kind == kind) = true
      · exact .of_ok (by rw [take, if_pos isKind])
      · have fails : take kind what (token :: rest) = .error ⟨.expected what, some token⟩ := by
          rw [take, if_neg isKind]
        exact .of_error fails (by simp)

theorem settles_identifier (what : Bytes) : Settles (identifier what) 1 tokens :=
  (settles_take .identifier what).bind fun _ _ _ => .pure _

theorem settles_skip (kind : TokenKind) : Settles (skip kind) 0 tokens where
  takes := by
    intro value rest run
    cases tokens with
    | nil =>
        cases run
        exact Nat.le_refl _
    | cons token others =>
        simp only [skip] at run
        split at run <;> cases run
        · exact Nat.le_succ _
        · exact Nat.le_refl _
  uncut := by
    intro error run
    cases tokens with
    | nil => cases run
    | cons token others =>
        simp only [skip] at run
        split at run <;> cases run

end Tokens

/-! ### Expressions -/

/-- Within a depth, the parsers of expressions settle on tokens of a number that fits the depth. -/
structure SettlesExprs (depth : Nat) : Prop where
  operand : ∀ {weakest : Precedence} {tokens : List Token}, 1 ≤ weakest.level →
    4 * tokens.length + 2 ≤ depth → Settles (operandWithin depth weakest) 1 tokens
  operators : ∀ {weakest : Precedence} {left : Expr} {tokens : List Token}, 1 ≤ weakest.level →
    4 * tokens.length + 2 ≤ depth → Settles (operatorsWithin depth weakest left) 0 tokens
  primary : ∀ {tokens : List Token}, 4 * tokens.length + 1 ≤ depth →
    Settles (primaryWithin depth) 1 tokens
  operator : ∀ {left : Expr} {tokens : List Token}, 1 ≤ upcomingLevel tokens →
    4 * tokens.length + 1 ≤ depth → Settles (operatorWithin depth left) 1 tokens
  arguments : ∀ {tokens : List Token}, 4 * tokens.length + 3 ≤ depth →
    Settles (argumentsWithin depth) 1 tokens

namespace SettlesExprs

variable {depth : Nat}

theorem operand_succ (within : SettlesExprs depth) {weakest : Precedence} {tokens : List Token}
    (binds : 1 ≤ weakest.level) (enough : 4 * tokens.length + 2 ≤ depth + 1) :
    Settles (operandWithin (depth + 1) weakest) 1 tokens := by
  rw [operandWithin]
  refine (within.primary (by omega)).bind fun left rest shorter => ?_
  exact within.operators binds (by omega)

theorem operators_succ (within : SettlesExprs depth) {weakest : Precedence} {left : Expr}
    {tokens : List Token} (binds : 1 ≤ weakest.level) (enough : 4 * tokens.length + 2 ≤ depth + 1) :
    Settles (operatorsWithin (depth + 1) weakest left) 0 tokens := by
  rw [operatorsWithin]
  refine .peek ?_
  split
  · rename_i reaches
    -- The operator is a token that is taken, so fewer are left for the next ones.
    refine ((within.operator (Nat.le_trans binds reaches) (by omega)).bind
      fun larger rest shorter => ?_).any
    exact within.operators binds (by omega)
  · exact .pure left

theorem primary_succ (within : SettlesExprs depth) {tokens : List Token}
    (enough : 4 * tokens.length + 1 ≤ depth + 1) :
    Settles (primaryWithin (depth + 1)) 1 tokens := by
  cases tokens with
  | nil => exact .of_error primaryWithin_nil (by simp)
  | cons token rest =>
      rw [List.length_cons] at enough
      by_cases listed : token.kind ∈ literalKinds
      · cases found : literal token with
        | error error =>
            exact .of_error (by rw [primaryWithin_literal listed, found]; rfl)
              (literal_eq_error found).2
        | ok expression => exact .of_ok (by rw [primaryWithin_literal listed, found]; rfl)
      by_cases isName : token.kind = .identifier
      · exact .of_ok (primaryWithin_variable isName)
      by_cases isOpening : token.kind = .leftParen
      · refine ((within.operand (by decide) (by omega)).bind fun inner middle _ => ?_).any.behind
          (primaryWithin_group isOpening)
        exact ((settles_take .rightParen _).bind fun _ _ _ => .pure _).any
      by_cases isOperator : token.kind = .minus ∨ token.kind = .bang
      · exact ((within.operand (by decide) (by omega)).bind fun _ _ _ => .pure _).any.behind
          (primaryWithin_unary isOperator)
      · exact .of_error (primaryWithin_other listed isName isOpening isOperator) (by simp)

theorem operator_succ (within : SettlesExprs depth) {left : Expr} {tokens : List Token}
    (binds : 1 ≤ upcomingLevel tokens) (enough : 4 * tokens.length + 1 ≤ depth + 1) :
    Settles (operatorWithin (depth + 1) left) 1 tokens := by
  cases tokens with
  | nil => exact absurd binds (by decide)
  | cons operator rest =>
      rw [List.length_cons] at enough
      rcases operator_cases binds with assigns | member | calls | member
      · by_cases isName : ∃ target, left = .variable target
        · obtain ⟨target, rfl⟩ := isName
          exact ((within.operand (by decide) (by omega)).bind fun _ _ _ => .pure _).any.behind
            (operatorWithin_assignment assigns)
        · exact .of_error (operatorWithin_noTarget assigns (not_exists.mp isName)) (by simp)
      · exact ((within.operand (isOperandLevel_tighter (.inr member)).1 (by omega)).bind
          fun _ _ _ => .pure _).any.behind (operatorWithin_logical member)
      · by_cases isName : ∃ callee, left = .variable callee
        · obtain ⟨callee, rfl⟩ := isName
          have arguments : Settles (argumentList depth) 0 rest :=
            .peek (.ite (.pure []) (within.arguments (by omega)).any)
          refine (arguments.bind fun given middle _ => ?_).behind (operatorWithin_call calls)
          exact ((settles_take .rightParen _).bind fun _ _ _ => .pure _).any
        · exact .of_error (operatorWithin_noCallee calls (not_exists.mp isName)) (by simp)
      · exact ((within.operand (isOperandLevel_tighter (.inl member)).1 (by omega)).bind
          fun _ _ _ => .pure _).any.behind (operatorWithin_binary member)

theorem arguments_succ (within : SettlesExprs depth) {tokens : List Token}
    (enough : 4 * tokens.length + 3 ≤ depth + 1) :
    Settles (argumentsWithin (depth + 1)) 1 tokens := by
  rw [argumentsWithin]
  refine (within.operand (by decide) (by omega)).bind fun argument rest shorter => ?_
  refine (settles_skip .comma).bind fun found others fewer => .ite ?_ (.pure _)
  exact ((within.arguments (by omega)).bind fun _ _ _ => .pure _).any

end SettlesExprs

theorem settlesExprs (depth : Nat) : SettlesExprs depth := by
  induction depth with
  | zero =>
      constructor
      all_goals
        intros
        omega
  | succ depth within =>
      exact
        { operand := within.operand_succ
          operators := within.operators_succ
          primary := within.primary_succ
          operator := within.operator_succ
          arguments := within.arguments_succ }

theorem settles_expression (tokens : List Token) : Settles expression 1 tokens := by
  have inner : Settles (operandWithin (4 * tokens.length + 4) .assignment) 1 tokens :=
    (settlesExprs _).operand (by decide) (by omega)
  exact ⟨inner.takes, inner.uncut⟩

/-! ### Statements -/

section Clauses

variable {tokens : List Token}

theorem settles_expressionUnless (kind : TokenKind) : Settles (expressionUnless kind) 0 tokens :=
  .peek (.ite (.pure _) ((settles_expression _).bind fun _ _ _ => .pure _).any)

theorem settles_expressionStatement : Settles expressionStatement 1 tokens :=
  (settles_expression _).bind fun _ _ _ => ((settles_take _ _).bind fun _ _ _ => .pure _).any

theorem settles_declaredType : Settles declaredType 0 tokens := by
  have named :
    ∀ rest, Settles (do return some (← identifier "type name") : Parser (Option Identifier))
      0 rest := fun rest => ((settles_identifier "type name").bind fun _ _ _ => .pure _).any
  exact (settles_skip .colon).bind fun _ rest _ =>
    .ite (named rest) (.peek (.ite (named rest) (.pure _)))

theorem settles_declarationEnd (keyword : Token) (name : Identifier) (type : Option Identifier) :
    Settles (declarationEnd keyword name type) 0 tokens := by
  have ending : ∀ (initial : Option Expr) rest, Settles (do
      if type.isNone && initial.isNone then failHere (.typeOrValueExpected name.name)
      let semicolon ← take .semicolon "';' after variable declaration"
      return ⟨keyword.position, name, type, initial, semicolon⟩ : Parser VarDecl) 0 rest :=
    fun initial rest => .ite (.failHere _ (by simp))
      ((settles_take .semicolon _).bind fun _ _ _ => .pure _).any
  refine (settles_skip .assign).bind fun _ rest _ => .ite ?_ ?_
  · exact ((settles_expression _).map some).bind (fun _ _ _ => ending _ _) |>.any
  · exact (Settles.pure none).bind fun _ _ _ => ending _ _

theorem settles_variableDeclaration : Settles variableDeclaration 1 tokens := by
  rw [variableDeclaration_eq]
  exact (settles_take .varKeyword _).bind fun _ _ _ => ((settles_identifier _).bind fun _ _ _ =>
    settles_declaredType.bind fun _ _ _ => settles_declarationEnd _ _ _).any

theorem settles_condition (keyword : Bytes) : Settles (condition keyword) 1 tokens :=
  (settles_take .leftParen _).bind fun _ _ _ => ((settles_expression _).bind fun _ _ _ =>
    ((settles_take .rightParen _).bind fun _ _ _ => .pure _).any).any

theorem settles_loopStart : Settles loopStart 0 tokens :=
  (settles_skip .semicolon).bind fun _ _ _ => .ite (.pure _) (.peek (.ite
    (settles_variableDeclaration.bind fun _ _ _ => .pure _).any
    (settles_expressionStatement.bind fun _ _ _ => .pure _).any))

theorem settles_returnStatement : Settles returnStatement 1 tokens :=
  (settles_take .returnKeyword _).bind fun _ _ _ => (settles_expressionUnless _).bind fun _ _ _ =>
    ((settles_take .semicolon _).bind fun _ _ _ => .pure _).any

theorem settles_jumpStatement (inLoop : Bool) : Settles (jumpStatement inLoop) 1 tokens := by
  cases tokens with
  | nil => exact .of_error rfl (by simp)
  | cons keyword rest =>
      cases inLoop with
      | false => exact .of_error rfl (by simp)
      | true => exact ((settles_take .semicolon _).bind fun _ _ _ => .pure _).any.behind rfl

end Clauses

/-- Within a depth, the parsers of statements settle on tokens of a number that fits the depth. -/
structure SettlesStmts (depth : Nat) : Prop where
  statement : ∀ {tokens : List Token} (inLoop : Bool), 4 * tokens.length + 2 ≤ depth →
    Settles (statementWithin depth inLoop) 1 tokens
  statements : ∀ {tokens : List Token} (inLoop : Bool), 4 * tokens.length + 3 ≤ depth →
    Settles (statementsWithin depth inLoop) 0 tokens
  block : ∀ {tokens : List Token} (inLoop : Bool), 4 * tokens.length + 1 ≤ depth →
    Settles (blockWithin depth inLoop) 1 tokens
  conditional : ∀ {tokens : List Token} (inLoop : Bool), 4 * tokens.length + 1 ≤ depth →
    Settles (conditionalWithin depth inLoop) 1 tokens
  while_ : ∀ {tokens : List Token}, 4 * tokens.length + 1 ≤ depth →
    Settles (whileWithin depth) 1 tokens
  for_ : ∀ {tokens : List Token}, 4 * tokens.length + 1 ≤ depth →
    Settles (forWithin depth) 1 tokens

namespace SettlesStmts

variable {depth : Nat} {tokens : List Token} {inLoop : Bool}

theorem statement_succ (within : SettlesStmts depth) (enough : 4 * tokens.length + 2 ≤ depth + 1) :
    Settles (statementWithin (depth + 1) inLoop) 1 tokens := by
  rw [statementWithin]
  refine .peek ?_
  split
  · exact settles_variableDeclaration.bind fun _ _ _ => .pure _
  · exact within.conditional inLoop (by omega)
  · exact within.while_ (by omega)
  · exact within.for_ (by omega)
  · exact settles_returnStatement
  · exact settles_jumpStatement inLoop
  · exact settles_jumpStatement inLoop
  · exact (within.block inLoop (by omega)).bind fun _ _ _ => .pure _
  · exact .failHere _ (by simp)
  · exact settles_expressionStatement.bind fun _ _ _ => .pure _

theorem statements_succ (within : SettlesStmts depth) (enough : 4 * tokens.length + 3 ≤ depth + 1) :
    Settles (statementsWithin (depth + 1) inLoop) 0 tokens := by
  rw [statementsWithin]
  refine .peek (.ite (.pure _) ?_)
  refine ((within.statement inLoop (by omega)).bind fun _ rest shorter => ?_).any
  exact (within.statements inLoop (by omega)).bind fun _ _ _ => .pure _

theorem block_succ (within : SettlesStmts depth) (enough : 4 * tokens.length + 1 ≤ depth + 1) :
    Settles (blockWithin (depth + 1) inLoop) 1 tokens := by
  rw [blockWithin]
  refine (settles_take .leftBrace _).bind fun _ rest shorter => ?_
  exact (within.statements inLoop (by omega)).bind fun _ _ _ =>
    ((settles_take .rightBrace _).bind fun _ _ _ => .pure _).any

theorem conditional_succ (within : SettlesStmts depth)
    (enough : 4 * tokens.length + 1 ≤ depth + 1) :
    Settles (conditionalWithin (depth + 1) inLoop) 1 tokens := by
  rw [conditionalWithin]
  refine (settles_take .ifKeyword _).bind fun _ rest first =>
    ((settles_condition _).bind fun _ rest second =>
      ((within.block inLoop (by omega)).bind fun _ rest third =>
        (settles_skip .elseKeyword).bind fun _ rest fourth => .ite (.peek (.ite ?_ ?_))
          (.pure _)).any).any
  · exact ((within.conditional inLoop (by omega)).bind fun _ _ _ => .pure _).any
  · exact ((within.block inLoop (by omega)).bind fun _ _ _ => .pure _).any

theorem while_succ (within : SettlesStmts depth) (enough : 4 * tokens.length + 1 ≤ depth + 1) :
    Settles (whileWithin (depth + 1)) 1 tokens := by
  rw [whileWithin]
  exact (settles_take .whileKeyword _).bind fun _ rest first =>
    ((settles_condition _).bind fun _ rest second =>
      ((within.block true (by omega)).bind fun _ _ _ => .pure _).any).any

theorem for_succ (within : SettlesStmts depth) (enough : 4 * tokens.length + 1 ≤ depth + 1) :
    Settles (forWithin (depth + 1)) 1 tokens := by
  rw [forWithin]
  refine (settles_take .forKeyword _).bind fun _ _ first =>
    ((settles_take .leftParen _).bind fun _ _ second => settles_loopStart.bind fun _ _ third =>
      (settles_expressionUnless _).bind fun _ _ fourth =>
        ((settles_take .semicolon _).bind fun _ _ fifth =>
          (settles_expressionUnless _).bind fun _ _ sixth =>
            ((settles_take .rightParen _).bind fun _ _ seventh => ?_).any).any).any
  exact ((within.block true (by omega)).bind fun _ _ _ => .pure _).any

end SettlesStmts

theorem settlesStmts (depth : Nat) : SettlesStmts depth := by
  induction depth with
  | zero =>
      constructor
      all_goals
        intros
        omega
  | succ depth within =>
      exact
        { statement := fun _ => within.statement_succ
          statements := fun _ => within.statements_succ
          block := fun _ => within.block_succ
          conditional := fun _ => within.conditional_succ
          while_ := within.while_succ
          for_ := within.for_succ }

theorem settles_statement (tokens : List Token) : Settles statement 1 tokens := by
  have inner : Settles (statementWithin (4 * tokens.length + 4) false) 1 tokens :=
    (settlesStmts _).statement false (by omega)
  exact ⟨inner.takes, inner.uncut⟩

theorem settles_block (tokens : List Token) : Settles block 1 tokens := by
  have inner : Settles (blockWithin (4 * tokens.length + 4) false) 1 tokens :=
    (settlesStmts _).block false (by omega)
  exact ⟨inner.takes, inner.uncut⟩

/-! ### Items -/

section Items

theorem settles_paramsWithin {count : Nat} {tokens : List Token} (enough : tokens.length < count) :
    Settles (paramsWithin count) 1 tokens := by
  have single : ∀ tokens, Settles param 1 tokens := fun tokens =>
    (settles_identifier _).bind fun _ _ _ => (settles_skip .colon).bind fun _ _ _ =>
      ((settles_identifier _).bind fun _ _ _ => .pure _).any
  induction count generalizing tokens with
  | zero => omega
  | succ count ih =>
      rw [paramsWithin]
      refine (single tokens).bind fun _ rest shorter => (settles_skip .comma).bind fun _ _ fewer =>
        .ite ?_ (.pure _)
      exact ((ih (by omega)).bind fun _ _ _ => .pure _).any

theorem settles_functionDeclaration (tokens : List Token) :
    Settles functionDeclaration 1 tokens := by
  have parameters : ∀ tokens, Settles params 0 tokens := by
    intro tokens
    refine .peek (.ite (.pure _) ?_)
    have inner := (settles_paramsWithin (Nat.lt_succ_self tokens.length)).any
    exact ⟨inner.takes, inner.uncut⟩
  have result : ∀ tokens, Settles resultType 0 tokens := fun tokens =>
    .peek (.ite ((settles_identifier _).map some).any (.pure _))
  have body : ∀ make tokens, Settles (functionBody make) 0 tokens := fun make tokens =>
    .peek (.ite (.failHere _ (by simp)) ((settles_block _).bind fun _ _ _ => .pure _).any)
  rw [functionDeclaration_eq]
  exact (settles_take .funcKeyword _).bind fun _ _ _ => ((settles_identifier _).bind fun _ _ _ =>
    ((settles_take .leftParen _).bind fun _ _ _ => (parameters _).bind fun _ _ _ =>
      ((settles_take .rightParen _).bind fun _ _ _ => (result _).bind fun _ _ _ =>
        body _ _).any).any).any

theorem settles_itemsWithin {count : Nat} {tokens : List Token} (enough : tokens.length < count) :
    Settles (itemsWithin count) 0 tokens := by
  induction count generalizing tokens with
  | zero => omega
  | succ count ih =>
      have single : Settles (item (upcoming tokens)) 1 tokens :=
        .ite ((settles_functionDeclaration _).map _) ((settles_statement _).map _)
      rw [itemsWithin_succ]
      refine .peek (.ite (.pure _) ?_)
      exact (single.bind fun _ _ shorter => (ih (by omega)).bind fun _ _ _ => .pure _).any

theorem settles_items (tokens : List Token) : Settles items 0 tokens := by
  have inner := settles_itemsWithin (Nat.lt_succ_self tokens.length)
  exact ⟨inner.takes, inner.uncut⟩

end Items

end ScriptCompiler.Parser
