import ScriptCompiler.Proofs.Syntax.Settling

/-!
# What more depth and more input change

A parser that may go deeper does the same, unless the first one was cut off.  A parser on longer
input does the same, unless the first one saw the end of the input: its result stands where tokens
are left behind it, and its error stands where it is raised at a token.  Both are one fact about two
runs (`Agrees`), which the parsers of the script language have for every depth and every input.
-/

namespace ScriptCompiler.Parser

open Grammar

variable {α β : Type}

/-- On some input, what one parser does before the end of the input is what another one does on the
input with more behind it. -/
structure Agrees (first second : Parser α) (more tokens : List Token) : Prop where
  ok : ∀ value rest, first tokens = .ok (value, rest) → more = [] ∨ rest ≠ [] →
    second (tokens ++ more) = .ok (value, rest ++ more)
  error : ∀ error, first tokens = .error error → error.fault ≠ .tooDeep →
    more = [] ∨ error.token ≠ none → second (tokens ++ more) = .error error
  ok_ne : ∀ value rest, first tokens = .ok (value, rest) → rest ≠ [] → tokens ≠ []
  error_ne : ∀ error, first tokens = .error error → error.token ≠ none → tokens ≠ []

namespace Agrees

variable {first second : Parser α} {more tokens : List Token}

theorem pure (value : α) : Agrees (Pure.pure value) (Pure.pure value) more tokens where
  ok := by
    rintro result rest ⟨⟩ _
    rfl
  error := by rintro error ⟨⟩
  ok_ne := by
    rintro result rest ⟨⟩ left
    exact left
  error_ne := by rintro error ⟨⟩

theorem bind {next later : α → Parser β} (agrees : Agrees first second more tokens)
    (goesOn : ∀ value rest, first tokens = .ok (value, rest) →
      Agrees (next value) (later value) more rest) :
    Agrees (first >>= next) (second >>= later) more tokens where
  ok := by
    intro result rest run behind
    obtain ⟨value, middle, firstRun, nextRun⟩ := bind_eq_ok.mp run
    have inner := goesOn value middle firstRun
    have between : more = [] ∨ middle ≠ [] := behind.imp_right (inner.ok_ne result rest nextRun)
    exact bind_eq_ok.mpr ⟨value, middle ++ more, agrees.ok value middle firstRun between,
      inner.ok result rest nextRun behind⟩
  error := by
    intro error run known place
    rcases bind_eq_error.mp run with early | ⟨value, middle, firstRun, late⟩
    · exact bind_eq_error.mpr (.inl (agrees.error error early known place))
    · have inner := goesOn value middle firstRun
      have between : more = [] ∨ middle ≠ [] := place.imp_right (inner.error_ne error late)
      exact bind_eq_error.mpr (.inr ⟨value, middle ++ more, agrees.ok value middle firstRun between,
        inner.error error late known place⟩)
  ok_ne := by
    intro result rest run left
    obtain ⟨value, middle, firstRun, nextRun⟩ := bind_eq_ok.mp run
    exact agrees.ok_ne value middle firstRun
      ((goesOn value middle firstRun).ok_ne result rest nextRun left)
  error_ne := by
    intro error run place
    rcases bind_eq_error.mp run with early | ⟨value, middle, firstRun, late⟩
    · exact agrees.error_ne error early place
    · exact agrees.ok_ne value middle firstRun
        ((goesOn value middle firstRun).error_ne error late place)

theorem map (change : α → β) (agrees : Agrees first second more tokens) :
    Agrees (change <$> first) (change <$> second) more tokens := by
  rw [map_eq_pure_bind, map_eq_pure_bind]
  exact agrees.bind fun value _ _ => pure (change value)

theorem ite {test : Prop} [Decidable test] {other another : Parser α}
    (chosen : Agrees first second more tokens) (rejected : Agrees other another more tokens) :
    Agrees (if test then first else other) (if test then second else another) more tokens := by
  split
  · exact chosen
  · exact rejected

/-- A parser that is cut off agrees with every other one. -/
theorem cut : Agrees (Parser.failHere .tooDeep) second more tokens where
  ok := by rintro value rest ⟨⟩
  error := by
    rintro error ⟨⟩ known
    exact absurd rfl known
  ok_ne := by rintro value rest ⟨⟩
  error_ne := by
    rintro error ⟨⟩ place rfl
    exact place rfl

theorem failHere (fault : SyntaxFault) :
    Agrees (Parser.failHere fault : Parser α) (Parser.failHere fault) more tokens where
  ok := by rintro value rest ⟨⟩
  error := by
    rintro error ⟨⟩ _ place
    cases tokens with
    | nil =>
        rcases place with rfl | place
        · rfl
        · exact absurd rfl place
    | cons token rest => rfl
  ok_ne := by rintro value rest ⟨⟩
  error_ne := by
    rintro error ⟨⟩ place rfl
    exact place rfl

/-- A parser that looks at the next token first. -/
theorem peek {next later : TokenKind → Parser α}
    (agrees : Agrees (next (upcoming tokens)) (later (upcoming tokens)) more tokens) :
    Agrees (Parser.peek >>= next) (Parser.peek >>= later) more tokens := by
  -- The next token is the same, unless there is none and more input comes.
  have same : more = [] ∨ tokens ≠ [] → upcoming (tokens ++ more) = upcoming tokens := by
    rintro (rfl | left)
    · rw [List.append_nil]
    · cases tokens with
      | nil => exact absurd rfl left
      | cons token rest => rfl
  refine ⟨?_, ?_, agrees.ok_ne, agrees.error_ne⟩
  · intro value rest run behind
    rw [peek_bind, same (behind.imp_right (agrees.ok_ne value rest run))]
    exact agrees.ok value rest run behind
  · intro error run known place
    rw [peek_bind, same (place.imp_right (agrees.error_ne error run))]
    exact agrees.error error run known place

/-- At the end of the input only what comes behind it could help. -/
theorem of_end {fault : SyntaxFault} (fails : first [] = .error ⟨fault, none⟩)
    (fails' : second [] = .error ⟨fault, none⟩) : Agrees first second more [] where
  ok value rest run := by
    rw [fails] at run
    cases run
  error := by
    intro error run _ place
    rw [fails] at run
    cases run
    rcases place with rfl | place
    · exact fails'
    · exact absurd rfl place
  ok_ne value rest run := by
    rw [fails] at run
    cases run
  error_ne := by
    intro error run place
    rw [fails] at run
    cases run
    exact absurd rfl place

theorem of_ok {token : Token} {rest : List Token} {value : α}
    (takes : first (token :: rest) = .ok (value, rest))
    (takes' : second (token :: (rest ++ more)) = .ok (value, rest ++ more)) :
    Agrees first second more (token :: rest) where
  ok other last run _ := by
    rw [takes] at run
    cases run
    exact takes'
  error error run := by
    rw [takes] at run
    cases run
  ok_ne _ _ _ _ := List.cons_ne_nil _ _
  error_ne _ _ _ := List.cons_ne_nil _ _

theorem of_error {token : Token} {rest : List Token} {error : SyntaxError}
    (fails : first (token :: rest) = .error error)
    (fails' : second (token :: (rest ++ more)) = .error error) :
    Agrees first second more (token :: rest) where
  ok value last run := by
    rw [fails] at run
    cases run
  error other run _ _ := by
    rw [fails] at run
    cases run
    exact fails'
  ok_ne _ _ _ _ := List.cons_ne_nil _ _
  error_ne _ _ _ := List.cons_ne_nil _ _

/-- What parsers do behind a token that they have taken. -/
theorem behind {inner deeper : Parser α} {token : Token} {rest : List Token}
    (agrees : Agrees inner deeper more rest) (same : first (token :: rest) = inner rest)
    (same' : second (token :: (rest ++ more)) = deeper (rest ++ more)) :
    Agrees first second more (token :: rest) where
  ok value last run behind := same'.trans (agrees.ok value last (same ▸ run) behind)
  error error run known place := same'.trans (agrees.error error (same ▸ run) known place)
  ok_ne _ _ _ _ := List.cons_ne_nil _ _
  error_ne _ _ _ := List.cons_ne_nil _ _

/-- The parsers may be chosen by looking at the whole input. -/
theorem congr {inner deeper : Parser α} (agrees : Agrees inner deeper more tokens)
    (same : first tokens = inner tokens)
    (same' : second (tokens ++ more) = deeper (tokens ++ more)) :
    Agrees first second more tokens where
  ok value rest run := same' ▸ agrees.ok value rest (same ▸ run)
  error error run := same' ▸ agrees.error error (same ▸ run)
  ok_ne value rest run := agrees.ok_ne value rest (same ▸ run)
  error_ne error run := agrees.error_ne error (same ▸ run)

end Agrees

section Tokens

variable {more tokens : List Token}

theorem agrees_take (kind : TokenKind) (what : Bytes) :
    Agrees (take kind what) (take kind what) more tokens := by
  cases tokens with
  | nil => exact .of_end rfl rfl
  | cons token rest =>
      by_cases isKind : (token.kind == kind) = true
      · exact .of_ok (by rw [take, if_pos isKind]) (by rw [take, if_pos isKind])
      · exact .of_error (by rw [take, if_neg isKind]) (by rw [take, if_neg isKind])

theorem agrees_identifier (what : Bytes) :
    Agrees (identifier what) (identifier what) more tokens :=
  (agrees_take .identifier what).bind fun _ _ _ => .pure _

theorem agrees_skip (kind : TokenKind) : Agrees (skip kind) (skip kind) more tokens := by
  cases tokens with
  | nil =>
      constructor
      · rintro value rest ⟨⟩ (rfl | left)
        · rfl
        · exact absurd rfl left
      · rintro error ⟨⟩
      · rintro value rest ⟨⟩ left
        exact left
      · rintro error ⟨⟩
  | cons token others =>
      refine ⟨?_, ?_, fun _ _ _ _ => List.cons_ne_nil _ _, fun _ _ _ => List.cons_ne_nil _ _⟩
      · intro value rest run _
        rw [skip] at run
        rw [List.cons_append, skip]
        split at run
        · rename_i isKind
          cases run
          rw [if_pos isKind]
        · rename_i isOther
          cases run
          rw [if_neg isOther]
          rfl
      · intro error run
        simp only [skip] at run
        split at run <;> cases run

end Tokens

/-! ### Expressions -/

/-- The parsers of expressions within a depth agree with those within another one. -/
structure AgreeExprs (depth deeper : Nat) : Prop where
  operand : ∀ {weakest : Precedence} {more tokens : List Token}, 1 ≤ weakest.level →
    Agrees (operandWithin depth weakest) (operandWithin deeper weakest) more tokens
  operators : ∀ {weakest : Precedence} {left : Expr} {more tokens : List Token}, 1 ≤ weakest.level →
    Agrees (operatorsWithin depth weakest left) (operatorsWithin deeper weakest left) more tokens
  primary : ∀ {more tokens : List Token},
    Agrees (primaryWithin depth) (primaryWithin deeper) more tokens
  operator : ∀ {left : Expr} {more tokens : List Token}, 1 ≤ upcomingLevel tokens →
    Agrees (operatorWithin depth left) (operatorWithin deeper left) more tokens
  arguments : ∀ {more tokens : List Token},
    Agrees (argumentsWithin depth) (argumentsWithin deeper) more tokens

namespace AgreeExprs

variable {depth deeper : Nat} {more tokens : List Token}

theorem operand_succ (within : AgreeExprs depth deeper) {weakest : Precedence}
    (binds : 1 ≤ weakest.level) :
    Agrees (operandWithin (depth + 1) weakest) (operandWithin (deeper + 1) weakest) more
      tokens := by
  rw [operandWithin, operandWithin]
  exact within.primary.bind fun _ _ _ => within.operators binds

theorem operators_succ (within : AgreeExprs depth deeper) {weakest : Precedence} {left : Expr}
    (binds : 1 ≤ weakest.level) :
    Agrees (operatorsWithin (depth + 1) weakest left) (operatorsWithin (deeper + 1) weakest left)
      more tokens := by
  rw [operatorsWithin, operatorsWithin]
  refine .peek ?_
  split
  · rename_i reaches
    exact (within.operator (Nat.le_trans binds reaches)).bind fun _ _ _ => within.operators binds
  · exact .pure left

theorem primary_succ (within : AgreeExprs depth deeper) :
    Agrees (primaryWithin (depth + 1)) (primaryWithin (deeper + 1)) more tokens := by
  cases tokens with
  | nil => exact .of_end primaryWithin_nil primaryWithin_nil
  | cons token rest =>
      by_cases listed : token.kind ∈ literalKinds
      · cases found : literal token with
        | error error =>
            exact .of_error (by rw [primaryWithin_literal listed, found]; rfl)
              (by rw [primaryWithin_literal listed, found]; rfl)
        | ok expression =>
            exact .of_ok (by rw [primaryWithin_literal listed, found]; rfl)
              (by rw [primaryWithin_literal listed, found]; rfl)
      by_cases isName : token.kind = .identifier
      · exact .of_ok (primaryWithin_variable isName) (primaryWithin_variable isName)
      by_cases isOpening : token.kind = .leftParen
      · exact ((within.operand (by decide)).bind fun _ _ _ =>
          (agrees_take .rightParen _).bind fun _ _ _ => .pure _).behind
          (primaryWithin_group isOpening) (primaryWithin_group isOpening)
      by_cases isOperator : token.kind = .minus ∨ token.kind = .bang
      · exact ((within.operand (by decide)).bind fun _ _ _ => .pure _).behind
          (primaryWithin_unary isOperator) (primaryWithin_unary isOperator)
      · exact .of_error (primaryWithin_other listed isName isOpening isOperator)
          (primaryWithin_other listed isName isOpening isOperator)

theorem operator_succ (within : AgreeExprs depth deeper) {left : Expr}
    (binds : 1 ≤ upcomingLevel tokens) :
    Agrees (operatorWithin (depth + 1) left) (operatorWithin (deeper + 1) left) more tokens := by
  cases tokens with
  | nil => exact absurd binds (by decide)
  | cons operator rest =>
      rcases operator_cases binds with assigns | member | calls | member
      · by_cases isName : ∃ target, left = .variable target
        · obtain ⟨target, rfl⟩ := isName
          exact ((within.operand (by decide)).bind fun _ _ _ => .pure _).behind
            (operatorWithin_assignment assigns) (operatorWithin_assignment assigns)
        · have noName := not_exists.mp isName
          exact .of_error (operatorWithin_noTarget assigns noName)
            (operatorWithin_noTarget assigns noName)
      · exact ((within.operand (isOperandLevel_tighter (.inr member)).1).bind
          fun _ _ _ => .pure _).behind (operatorWithin_logical member)
            (operatorWithin_logical member)
      · by_cases isName : ∃ callee, left = .variable callee
        · obtain ⟨callee, rfl⟩ := isName
          have arguments : Agrees (argumentList depth) (argumentList deeper) more rest :=
            .peek (.ite (.pure []) within.arguments)
          exact (arguments.bind fun _ _ _ => (agrees_take .rightParen _).bind fun _ _ _ =>
            .pure _).behind (operatorWithin_call calls) (operatorWithin_call calls)
        · have noName := not_exists.mp isName
          exact .of_error (operatorWithin_noCallee calls noName)
            (operatorWithin_noCallee calls noName)
      · exact ((within.operand (isOperandLevel_tighter (.inl member)).1).bind
          fun _ _ _ => .pure _).behind (operatorWithin_binary member) (operatorWithin_binary member)

theorem arguments_succ (within : AgreeExprs depth deeper) :
    Agrees (argumentsWithin (depth + 1)) (argumentsWithin (deeper + 1)) more tokens := by
  rw [argumentsWithin, argumentsWithin]
  exact (within.operand (by decide)).bind fun _ _ _ => (agrees_skip .comma).bind fun _ _ _ =>
    .ite (within.arguments.bind fun _ _ _ => .pure _) (.pure _)

end AgreeExprs

theorem agreeExprs {depth deeper : Nat} (deep : depth ≤ deeper) : AgreeExprs depth deeper := by
  induction depth generalizing deeper with
  | zero => exact ⟨fun _ => .cut, fun _ => .cut, .cut, fun _ => .cut, .cut⟩
  | succ depth ih =>
      obtain ⟨deeper, rfl⟩ := Nat.exists_eq_add_of_lt deep
      have within : AgreeExprs depth (depth + deeper) := ih (by omega)
      exact
        { operand := within.operand_succ
          operators := within.operators_succ
          primary := within.primary_succ
          operator := within.operator_succ
          arguments := within.arguments_succ }

theorem agrees_expression {more tokens : List Token} :
    Agrees expression expression more tokens := by
  have deep : 4 * tokens.length + 4 ≤ 4 * (tokens ++ more).length + 4 := by
    rw [List.length_append]
    omega
  exact ((agreeExprs deep).operand (by decide)).congr rfl rfl

/-! ### Statements -/

section Clauses

variable {more tokens : List Token}

theorem agrees_expressionUnless (kind : TokenKind) :
    Agrees (expressionUnless kind) (expressionUnless kind) more tokens :=
  .peek (.ite (.pure _) (agrees_expression.bind fun _ _ _ => .pure _))

theorem agrees_expressionStatement :
    Agrees expressionStatement expressionStatement more tokens :=
  agrees_expression.bind fun _ _ _ => (agrees_take _ _).bind fun _ _ _ => .pure _

theorem agrees_declaredType : Agrees declaredType declaredType more tokens :=
  (agrees_skip .colon).bind fun _ _ _ => .ite ((agrees_identifier _).bind fun _ _ _ => .pure _)
    (.peek (.ite ((agrees_identifier _).bind fun _ _ _ => .pure _) (.pure _)))

theorem agrees_declarationEnd (keyword : Token) (name : Identifier) (type : Option Identifier) :
    Agrees (declarationEnd keyword name type) (declarationEnd keyword name type) more tokens := by
  have ending : ∀ {rest} (initial : Option Expr), Agrees (do
      if type.isNone && initial.isNone then failHere (.typeOrValueExpected name.name)
      let semicolon ← take .semicolon "';' after variable declaration"
      return ⟨keyword.position, name, type, initial, semicolon⟩ : Parser VarDecl) (do
      if type.isNone && initial.isNone then failHere (.typeOrValueExpected name.name)
      let semicolon ← take .semicolon "';' after variable declaration"
      return ⟨keyword.position, name, type, initial, semicolon⟩ : Parser VarDecl) more rest :=
    fun initial => .ite (.failHere _) ((agrees_take .semicolon _).bind fun _ _ _ => .pure _)
  exact (agrees_skip .assign).bind fun _ _ _ =>
    .ite ((agrees_expression.map some).bind fun initial _ _ => ending initial)
      ((Agrees.pure none).bind fun initial _ _ => ending initial)

theorem agrees_variableDeclaration :
    Agrees variableDeclaration variableDeclaration more tokens := by
  rw [variableDeclaration_eq]
  exact (agrees_take .varKeyword _).bind fun _ _ _ => (agrees_identifier _).bind fun _ _ _ =>
    agrees_declaredType.bind fun _ _ _ => agrees_declarationEnd _ _ _

theorem agrees_condition (keyword : Bytes) :
    Agrees (condition keyword) (condition keyword) more tokens :=
  (agrees_take .leftParen _).bind fun _ _ _ => agrees_expression.bind fun _ _ _ =>
    (agrees_take .rightParen _).bind fun _ _ _ => .pure _

theorem agrees_loopStart : Agrees loopStart loopStart more tokens :=
  (agrees_skip .semicolon).bind fun _ _ _ => .ite (.pure _) (.peek (.ite
    (agrees_variableDeclaration.bind fun _ _ _ => .pure _)
    (agrees_expressionStatement.bind fun _ _ _ => .pure _)))

theorem agrees_returnStatement : Agrees returnStatement returnStatement more tokens :=
  (agrees_take .returnKeyword _).bind fun _ _ _ => (agrees_expressionUnless _).bind fun _ _ _ =>
    (agrees_take .semicolon _).bind fun _ _ _ => .pure _

theorem agrees_jumpStatement (inLoop : Bool) :
    Agrees (jumpStatement inLoop) (jumpStatement inLoop) more tokens := by
  cases tokens with
  | nil => exact .of_end rfl rfl
  | cons keyword rest =>
      cases inLoop with
      | false => exact .of_error rfl rfl
      | true => exact ((agrees_take .semicolon _).bind fun _ _ _ => .pure _).behind rfl rfl

end Clauses

/-- The parsers of statements within a depth agree with those within another one. -/
structure AgreeStmts (depth deeper : Nat) : Prop where
  statement : ∀ {more tokens : List Token} (inLoop : Bool),
    Agrees (statementWithin depth inLoop) (statementWithin deeper inLoop) more tokens
  statements : ∀ {more tokens : List Token} (inLoop : Bool),
    Agrees (statementsWithin depth inLoop) (statementsWithin deeper inLoop) more tokens
  block : ∀ {more tokens : List Token} (inLoop : Bool),
    Agrees (blockWithin depth inLoop) (blockWithin deeper inLoop) more tokens
  conditional : ∀ {more tokens : List Token} (inLoop : Bool),
    Agrees (conditionalWithin depth inLoop) (conditionalWithin deeper inLoop) more tokens
  while_ : ∀ {more tokens : List Token}, Agrees (whileWithin depth) (whileWithin deeper) more tokens
  for_ : ∀ {more tokens : List Token}, Agrees (forWithin depth) (forWithin deeper) more tokens

namespace AgreeStmts

variable {depth deeper : Nat} {more tokens : List Token} {inLoop : Bool}

theorem statement_succ (within : AgreeStmts depth deeper) :
    Agrees (statementWithin (depth + 1) inLoop) (statementWithin (deeper + 1) inLoop) more
      tokens := by
  rw [statementWithin, statementWithin]
  refine .peek ?_
  split
  · exact agrees_variableDeclaration.bind fun _ _ _ => .pure _
  · exact within.conditional inLoop
  · exact within.while_
  · exact within.for_
  · exact agrees_returnStatement
  · exact agrees_jumpStatement inLoop
  · exact agrees_jumpStatement inLoop
  · exact (within.block inLoop).bind fun _ _ _ => .pure _
  · exact .failHere _
  · exact agrees_expressionStatement.bind fun _ _ _ => .pure _

theorem statements_succ (within : AgreeStmts depth deeper) :
    Agrees (statementsWithin (depth + 1) inLoop) (statementsWithin (deeper + 1) inLoop) more
      tokens := by
  rw [statementsWithin, statementsWithin]
  exact .peek (.ite (.pure _) ((within.statement inLoop).bind fun _ _ _ =>
    (within.statements inLoop).bind fun _ _ _ => .pure _))

theorem block_succ (within : AgreeStmts depth deeper) :
    Agrees (blockWithin (depth + 1) inLoop) (blockWithin (deeper + 1) inLoop) more tokens := by
  rw [blockWithin, blockWithin]
  exact (agrees_take .leftBrace _).bind fun _ _ _ => (within.statements inLoop).bind fun _ _ _ =>
    (agrees_take .rightBrace _).bind fun _ _ _ => .pure _

theorem conditional_succ (within : AgreeStmts depth deeper) :
    Agrees (conditionalWithin (depth + 1) inLoop) (conditionalWithin (deeper + 1) inLoop)
      more tokens := by
  rw [conditionalWithin, conditionalWithin]
  exact (agrees_take .ifKeyword _).bind fun _ _ _ => (agrees_condition _).bind fun _ _ _ =>
    (within.block inLoop).bind fun _ _ _ => (agrees_skip .elseKeyword).bind fun _ _ _ =>
      .ite (.peek (.ite ((within.conditional inLoop).bind fun _ _ _ => .pure _)
        ((within.block inLoop).bind fun _ _ _ => .pure _))) (.pure _)

theorem while_succ (within : AgreeStmts depth deeper) :
    Agrees (whileWithin (depth + 1)) (whileWithin (deeper + 1)) more tokens := by
  rw [whileWithin, whileWithin]
  exact (agrees_take .whileKeyword _).bind fun _ _ _ => (agrees_condition _).bind fun _ _ _ =>
    (within.block true).bind fun _ _ _ => .pure _

theorem for_succ (within : AgreeStmts depth deeper) :
    Agrees (forWithin (depth + 1)) (forWithin (deeper + 1)) more tokens := by
  rw [forWithin, forWithin]
  exact (agrees_take .forKeyword _).bind fun _ _ _ => (agrees_take .leftParen _).bind fun _ _ _ =>
    agrees_loopStart.bind fun _ _ _ => (agrees_expressionUnless _).bind fun _ _ _ =>
      (agrees_take .semicolon _).bind fun _ _ _ => (agrees_expressionUnless _).bind fun _ _ _ =>
        (agrees_take .rightParen _).bind fun _ _ _ => (within.block true).bind fun _ _ _ => .pure _

end AgreeStmts

theorem agreeStmts {depth deeper : Nat} (deep : depth ≤ deeper) : AgreeStmts depth deeper := by
  induction depth generalizing deeper with
  | zero =>
      exact ⟨fun _ => .cut, fun _ => .cut, fun _ => .cut, fun _ => .cut, .cut, .cut⟩
  | succ depth ih =>
      obtain ⟨deeper, rfl⟩ := Nat.exists_eq_add_of_lt deep
      have within : AgreeStmts depth (depth + deeper) := ih (by omega)
      exact
        { statement := fun _ => within.statement_succ
          statements := fun _ => within.statements_succ
          block := fun _ => within.block_succ
          conditional := fun _ => within.conditional_succ
          while_ := within.while_succ
          for_ := within.for_succ }

section Items

variable {more tokens : List Token}

theorem length_le_append : 4 * tokens.length + 4 ≤ 4 * (tokens ++ more).length + 4 := by
  rw [List.length_append]
  omega

theorem agrees_statement : Agrees statement statement more tokens :=
  ((agreeStmts length_le_append).statement false).congr rfl rfl

theorem agrees_block : Agrees block block more tokens :=
  ((agreeStmts length_le_append).block false).congr rfl rfl

theorem agrees_param : Agrees param param more tokens :=
  (agrees_identifier _).bind fun _ _ _ => (agrees_skip .colon).bind fun _ _ _ =>
    (agrees_identifier _).bind fun _ _ _ => .pure _

theorem agrees_paramsWithin {count higher : Nat} (larger : count ≤ higher) :
    Agrees (paramsWithin count) (paramsWithin higher) more tokens := by
  induction count generalizing higher tokens with
  | zero => exact .cut
  | succ count ih =>
      obtain ⟨higher, rfl⟩ := Nat.exists_eq_add_of_lt larger
      rw [paramsWithin, paramsWithin]
      exact agrees_param.bind fun _ _ _ => (agrees_skip .comma).bind fun _ _ _ =>
        .ite ((ih (by omega)).bind fun _ _ _ => .pure _) (.pure _)

theorem agrees_params : Agrees params params more tokens := by
  have larger : tokens.length + 1 ≤ (tokens ++ more).length + 1 := by
    rw [List.length_append]
    omega
  exact .peek (.ite (.pure _) ((agrees_paramsWithin larger).congr rfl rfl))

theorem agrees_functionDeclaration :
    Agrees functionDeclaration functionDeclaration more tokens := by
  have result : ∀ {tokens}, Agrees resultType resultType more tokens :=
    .peek (.ite ((agrees_identifier _).map some) (.pure _))
  have body : ∀ {make tokens}, Agrees (functionBody make) (functionBody make) more tokens :=
    .peek (.ite (.failHere _) (agrees_block.bind fun _ _ _ => .pure _))
  rw [functionDeclaration_eq]
  exact (agrees_take .funcKeyword _).bind fun _ _ _ => (agrees_identifier _).bind fun _ _ _ =>
    (agrees_take .leftParen _).bind fun _ _ _ => agrees_params.bind fun _ _ _ =>
      (agrees_take .rightParen _).bind fun _ _ _ => result.bind fun _ _ _ => body

theorem agrees_itemsWithin {count higher : Nat} (larger : count ≤ higher) :
    Agrees (itemsWithin count) (itemsWithin higher) more tokens := by
  induction count generalizing higher tokens with
  | zero => exact .cut
  | succ count ih =>
      obtain ⟨higher, rfl⟩ := Nat.exists_eq_add_of_lt larger
      have single : ∀ next, Agrees (item next) (item next) more tokens := fun next =>
        .ite (agrees_functionDeclaration.map _) (agrees_statement.map _)
      rw [itemsWithin_succ, itemsWithin_succ]
      exact .peek (.ite (.pure _) ((single _).bind fun _ _ _ => (ih (by omega)).bind fun _ _ _ =>
        .pure _))

theorem agrees_items : Agrees items items more tokens := by
  have larger : tokens.length + 1 ≤ (tokens ++ more).length + 1 := by
    rw [List.length_append]
    omega
  exact (agrees_itemsWithin larger).congr rfl rfl

end Items

end ScriptCompiler.Parser
