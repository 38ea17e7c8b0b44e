import ScriptCompiler.Proofs.Syntax.Fitting

/-!
# Parsers of statements and declarations that fit the grammar

The parsers of statements, at every depth, of functions and of whole programs fit the strict form of
the grammar.
-/

namespace ScriptCompiler.Parser

open Grammar Parser.Language

section Clauses

theorem fits_expressionUnless (kind : TokenKind) : Fits (expressionUnless kind) IsOptional := by
  refine .peek fun next => .ite ?_ ?_
  · refine (Fits.pure none).mono ?_
    rintro used value ⟨rfl, rfl⟩
    exact .none
  · refine (fits_expression.bind fun value => Fits.pure (some value)).mono ?_
    rintro used value ⟨first, second, expression, rfl, derived, rfl, rfl⟩
    rw [List.append_nil]
    exact .some derived

theorem fits_expressionStatement : Fits expressionStatement IsExprStmt := by
  refine (fits_expression.bind fun value =>
    (fits_take .semicolon "';' after expression" (by decide)).bind fun semicolon =>
      Fits.pure (⟨value, semicolon⟩ : ExprStmt)).mono ?_
  rintro used statement
    ⟨first, second, value, rfl, derived, third, fourth, semicolon, rfl,
      ⟨rfl, isSemicolon⟩, rfl, rfl⟩
  exact .mk derived isSemicolon

theorem fits_declaredType : Fits declaredType IsDeclaredType := by
  have named : Fits (do return some (← identifier "type name") : Parser (Option Identifier))
      fun tokens type => ∃ name : Token, tokens = [name] ∧ name.kind = .identifier ∧
      type = some ⟨name⟩ := by
    refine ((fits_identifier "type name").bind fun name => Fits.pure (some name)).mono ?_
    rintro used type ⟨first, second, name, rfl, ⟨rfl, isName⟩, rfl, rfl⟩
    exact ⟨name.token, rfl, isName, rfl⟩
  have bare : Fits (do
      if (← peek) == .identifier then return some (← identifier "type name")
      return none : Parser (Option Identifier)) IsDeclaredType := by
    refine .peek fun next => .ite (named.mono ?_) ((Fits.pure none).mono ?_)
    · rintro used type ⟨name, rfl, isName, rfl⟩
      exact .some (.plain isName)
    · rintro used type ⟨rfl, rfl⟩
      exact .none
  refine (Fits.skip named bare).mono ?_
  rintro used type (⟨colon, rest, rfl, isColon, name, rfl, isName, rfl⟩ | derived)
  · exact .some (.colon isColon isName)
  · exact derived

/-- The initial value of a variable, and the semicolon behind its declaration. -/
def declarationEnd (keyword : Token) (name : Identifier) (type : Option Identifier) :
    Parser VarDecl := do
  let initial : Option Expr ← if ← skip .assign then some <$> expression else pure none
  if type.isNone && initial.isNone then failHere (.typeOrValueExpected name.name)
  let semicolon ← take .semicolon "';' after variable declaration"
  return ⟨keyword.position, name, type, initial, semicolon⟩

theorem variableDeclaration_eq :
    variableDeclaration = (do
      let keyword ← take .varKeyword "'var'"
      let name ← identifier "variable name"
      let type ← declaredType
      declarationEnd keyword name type) := rfl

/-- Tokens are the end of a declaration: an initial value, or a semicolon alone if there is a
type. -/
def IsDeclarationEnd (keyword : Token) (name : Identifier) (type : Option Identifier) :
    Language VarDecl := fun tokens declaration =>
  ∃ initialising initial semicolon, tokens = initialising ++ [semicolon] ∧
    IsInitial initialising initial ∧ (type.isSome ∨ initial.isSome) ∧
    semicolon.kind = .semicolon ∧
    declaration = ⟨keyword.position, name, type, initial, semicolon⟩

theorem fits_declarationEnd (keyword : Token) (name : Identifier) (type : Option Identifier) :
    Fits (declarationEnd keyword name type) (IsDeclarationEnd keyword name type) := by
  have ending : ∀ initial : Option Expr,
      Fits (do
        let semicolon ← take .semicolon "';' after variable declaration"
        return ⟨keyword.position, name, type, initial, semicolon⟩ : Parser VarDecl)
        fun tokens declaration => ∃ semicolon : Token, tokens = [semicolon] ∧
          semicolon.kind = .semicolon ∧
          declaration = ⟨keyword.position, name, type, initial, semicolon⟩ := by
    intro initial
    refine ((fits_take .semicolon "';' after variable declaration" (by decide)).bind
      fun semicolon =>
      Fits.pure (⟨keyword.position, name, type, initial, semicolon⟩ : VarDecl)).mono ?_
    rintro used declaration ⟨first, second, semicolon, rfl, ⟨rfl, isSemicolon⟩, rfl, rfl⟩
    exact ⟨semicolon, rfl, isSemicolon, rfl⟩
  -- An initial value, behind the sign that announces it.
  have given : Fits (do
      let initial : Option Expr ← some <$> expression
      if type.isNone && initial.isNone then failHere (.typeOrValueExpected name.name)
      let semicolon ← take .semicolon "';' after variable declaration"
      return ⟨keyword.position, name, type, initial, semicolon⟩ : Parser VarDecl)
      fun tokens declaration => ∀ equals : Token, equals.kind = .assign →
        IsDeclarationEnd keyword name type (equals :: tokens) declaration := by
    rw [bind_map_left]
    simp only [Option.isNone_some, Bool.and_false, Bool.false_eq_true, if_false]
    refine (fits_expression.bind fun value => ending (some value)).mono ?_
    rintro used declaration ⟨first, second, value, rfl, derived, semicolon, rfl, isSemicolon, rfl⟩
      equals isEquals
    exact ⟨equals :: first, some value, semicolon, rfl, .some isEquals derived, .inr rfl,
      isSemicolon,
      rfl⟩
  have absent : Fits (do
      let initial : Option Expr ← pure none
      if type.isNone && initial.isNone then failHere (.typeOrValueExpected name.name)
      let semicolon ← take .semicolon "';' after variable declaration"
      return ⟨keyword.position, name, type, initial, semicolon⟩ : Parser VarDecl)
      (IsDeclarationEnd keyword name type) := by
    rw [pure_bind]
    cases type with
    | some type =>
        refine (ending none).mono ?_
        rintro used declaration ⟨semicolon, rfl, isSemicolon, rfl⟩
        exact ⟨[], none, semicolon, rfl, .none, .inl rfl, isSemicolon, rfl⟩
    | none =>
        -- Without a type only an initial value helps.
        obtain ⟨tokens, declaration, plain, holds⟩ := given.productive
        exact .failHere _ ⟨⟨.assign, [], {}⟩ :: tokens, declaration, .cons (by decide) plain,
          holds _ rfl⟩
  rw [declarationEnd]
  refine (Fits.skip given absent).mono ?_
  rintro used declaration (⟨equals, rest, rfl, isEquals, holds⟩ | holds)
  · exact holds equals isEquals
  · exact holds

theorem fits_variableDeclaration : Fits variableDeclaration IsVarDecl := by
  rw [variableDeclaration_eq]
  refine ((fits_take .varKeyword "'var'" (by decide)).bind fun keyword =>
    (fits_identifier "variable name").bind fun name =>
      fits_declaredType.bind fun type => fits_declarationEnd keyword name type).mono ?_
  rintro used declaration ⟨_, _, keyword, rfl, ⟨rfl, isKeyword⟩, _, _, name, rfl, ⟨rfl, isName⟩,
    typing, _, type, rfl, isType, initialising, initial, semicolon, rfl, isInitial, given,
    isSemicolon,
    rfl⟩
  simpa only [List.singleton_append, List.cons_append, List.nil_append, List.append_assoc] using
    IsVarDecl.mk isKeyword isName isType isInitial given isSemicolon

/-- Tokens are an expression in parentheses. -/
def IsCondition (tokens : List Token) (test : Expr) : Prop :=
  ∃ left testing right, tokens = left :: (testing ++ [right]) ∧ left.kind = .leftParen ∧
    IsExpr .assignment testing test ∧ right.kind = .rightParen

theorem fits_condition (keyword : Bytes) : Fits (condition keyword) IsCondition := by
  refine ((fits_take .leftParen _ (by decide)).bind fun _ => fits_expression.bind fun value =>
    (fits_take .rightParen "')' after condition" (by decide)).bind fun _ => Fits.pure value).mono ?_
  rintro used test ⟨_, _, left, rfl, ⟨rfl, isLeft⟩, testing, _, value, rfl, derived, _, _,
    right, rfl,
    ⟨rfl, isRight⟩, rfl, rfl⟩
  exact ⟨left, testing, right, rfl, isLeft, derived, isRight⟩

theorem fits_loopStart : Fits loopStart (IsLoopStart false) := by
  have given : Fits (do
      if (← peek) == .varKeyword then
        return some (.variable (← variableDeclaration))
      return some (.expression (← expressionStatement)) : Parser (Option LoopStart))
      (IsLoopStart false) := by
    refine .peek fun next => .ite
      ((fits_variableDeclaration.bind fun declaration =>
        Fits.pure (some (LoopStart.variable declaration))).mono ?_)
      ((fits_expressionStatement.bind fun statement =>
        Fits.pure (some (LoopStart.expression statement))).mono ?_)
    · rintro used start ⟨first, second, declaration, rfl, derived, rfl, rfl⟩
      rw [List.append_nil]
      exact .variable derived
    · rintro used start ⟨first, second, statement, rfl, derived, rfl, rfl⟩
      rw [List.append_nil]
      exact .expression derived
  refine (Fits.skip (Fits.pure none) given).mono ?_
  rintro used start (⟨semicolon, rest, rfl, isSemicolon, rfl, rfl⟩ | derived)
  · exact .none isSemicolon
  · exact derived

variable {inLoop : Bool}

theorem fits_returnStatement : Fits returnStatement (IsStmt false inLoop) := by
  refine ((fits_take .returnKeyword "'return'" (by decide)).bind fun keyword =>
    (fits_expressionUnless .semicolon).bind fun value =>
      (fits_take .semicolon "';' after return" (by decide)).bind fun semicolon =>
        Fits.pure (Stmt.return_ keyword.position value semicolon)).mono ?_
  rintro used statement ⟨_, _, keyword, rfl, ⟨rfl, isKeyword⟩, first, _, value, rfl, derived, _, _,
    semicolon, rfl, ⟨rfl, isSemicolon⟩, rfl, rfl⟩
  exact .return_ isKeyword derived isSemicolon

theorem productive_isStmt : Productive (IsStmt false inLoop) :=
  (@fits_returnStatement inLoop).productive

theorem fits_jumpStatement {tokens : List Token}
    (isJump : upcoming tokens = .breakKeyword ∨ upcoming tokens = .continueKeyword) :
    FitsAt (jumpStatement inLoop) (IsStmt false inLoop) tokens := by
  cases tokens with
  | nil => rcases isJump with same | same <;> cases same
  | cons keyword rest =>
      cases inLoop with
      | false =>
          exact .of_error (by rw [jumpStatement]; simp only [Bool.false_eq_true, if_false]; rfl)
      | true =>
          refine (((fits_take .semicolon ("';' after '" ++ keyword.lexeme ++ "'") (by decide)).bind
            fun _ => Fits.pure (if keyword.kind == .breakKeyword then Stmt.break_ keyword
              else Stmt.continue_ keyword)).at_ rest).behind (by rw [jumpStatement]; rfl) ?_
          rintro used statement ⟨_, _, semicolon, rfl, ⟨rfl, isSemicolon⟩, rfl, rfl⟩
          change keyword.kind = _ ∨ keyword.kind = _ at isJump
          rcases isJump with isBreak | isContinue
          · simpa [isBreak] using IsStmt.break_ isBreak isSemicolon
          · simpa [isContinue] using IsStmt.continue_ isContinue isSemicolon

end Clauses

/-! ### Statements -/

theorem FitsAt.peek {α : Type} {next : TokenKind → Parser α} {language : Language α}
    {tokens : List Token} (fits : FitsAt (next (upcoming tokens)) language tokens) :
    FitsAt (Parser.peek >>= next) language tokens := ⟨fits.sound, fits.finish⟩

/-- Within a depth, the parsers of statements fit the grammar. -/
structure FitsStmts (depth : Nat) : Prop where
  statement : ∀ inLoop, Fits (statementWithin depth inLoop) (IsStmt false inLoop)
  statements : ∀ inLoop, Fits (statementsWithin depth inLoop) (AreStmts false inLoop)
  block : ∀ inLoop, Fits (blockWithin depth inLoop) (IsBlock false inLoop)
  conditional : ∀ inLoop, Fits (conditionalWithin depth inLoop) (IsConditional false inLoop)
  while_ : ∀ inLoop, Fits (whileWithin depth) (IsStmt false inLoop)
  for_ : ∀ inLoop, Fits (forWithin depth) (IsStmt false inLoop)

theorem productive_isBlock {inLoop : Bool} : Productive (IsBlock false inLoop) :=
  ⟨[⟨.leftBrace, [], {}⟩, ⟨.rightBrace, [], {}⟩], _, .cons (by decide) (.cons (by decide) .nil),
    .mk rfl .none rfl⟩

theorem productive_isConditional {inLoop : Bool} : Productive (IsConditional false inLoop) := by
  obtain ⟨test, value, plain, isTest⟩ := productive_isExpr .assignment
  obtain ⟨block, ⟨opening, body, closing⟩, plain', isBlock⟩ := @productive_isBlock inLoop
  have whole := @IsConditional.mk false inLoop ⟨.ifKeyword, [], {}⟩ ⟨.leftParen, [], {}⟩
    ⟨.rightParen, [], {}⟩ _ _ _ _ _ _ _ _ rfl rfl isTest rfl isBlock .none
  exact ⟨_, _, .cons (by decide) (.cons (by decide) (plain.append (.cons (by decide)
    (plain'.append .nil)))), whole⟩

theorem fitsStmts_zero : FitsStmts 0 where
  statement _ := .failHere .tooDeep productive_isStmt
  statements _ := .failHere .tooDeep ⟨[], [], .nil, .none⟩
  block _ := .failHere .tooDeep productive_isBlock
  conditional _ := .failHere .tooDeep productive_isConditional
  while_ _ := .failHere .tooDeep productive_isStmt
  for_ _ := .failHere .tooDeep productive_isStmt

namespace FitsStmts

variable {depth : Nat} {inLoop : Bool}

theorem statement_succ (within : FitsStmts depth) :
    Fits (statementWithin (depth + 1) inLoop) (IsStmt false inLoop) := by
  refine ⟨fun tokens => ?_, productive_isStmt⟩
  rw [statementWithin]
  refine .peek ?_
  split
  · refine ((fits_variableDeclaration.bind fun declaration =>
      Fits.pure (Stmt.variable declaration)).at_ tokens).mono ?_
    rintro used statement ⟨first, second, declaration, rfl, derived, rfl, rfl⟩
    rw [List.append_nil]
    exact .variable derived
  · exact ((within.conditional inLoop).at_ tokens).mono fun _ _ => .conditional
  · exact (within.while_ inLoop).at_ tokens
  · exact (within.for_ inLoop).at_ tokens
  · exact fits_returnStatement.at_ tokens
  · rename_i isBreak
    exact fits_jumpStatement (.inl isBreak)
  · rename_i isContinue
    exact fits_jumpStatement (.inr isContinue)
  · have block : Fits (do
        let parts ← blockWithin depth inLoop
        return .block parts.1 parts.2.1 parts.2.2 : Parser Stmt) (IsStmt false inLoop) := by
      refine ((within.block inLoop).bind fun parts =>
        Fits.pure (Stmt.block parts.1 parts.2.1 parts.2.2)).mono ?_
      rintro used statement ⟨first, second, parts, rfl, derived, rfl, rfl⟩
      rw [List.append_nil]
      exact .block derived
    exact block.at_ tokens
  · exact .failHere _ productive_isStmt
  · refine ((fits_expressionStatement.bind fun statement =>
      Fits.pure (Stmt.expression statement)).at_ tokens).mono ?_
    rintro used statement ⟨first, second, expression, rfl, derived, rfl, rfl⟩
    rw [List.append_nil]
    exact .expression derived

theorem statements_succ (within : FitsStmts depth) :
    Fits (statementsWithin (depth + 1) inLoop) (AreStmts false inLoop) := by
  rw [statementsWithin]
  refine .peek fun next => .ite ?_ ?_
  · refine (Fits.pure []).mono ?_
    rintro used statements ⟨rfl, rfl⟩
    exact .none
  · refine ((within.statement inLoop).bind fun statement =>
      (within.statements inLoop).bind fun others => Fits.pure (statement :: others)).mono ?_
    rintro used statements ⟨first, second, statement, rfl, derived, third, fourth, others,
      rfl, isOthers,
      rfl, rfl⟩
    rw [List.append_nil]
    exact .more derived isOthers

theorem block_succ (within : FitsStmts depth) :
    Fits (blockWithin (depth + 1) inLoop) (IsBlock false inLoop) := by
  rw [blockWithin]
  refine ((fits_take .leftBrace _ (by decide)).bind fun opening =>
    (within.statements inLoop).bind fun body =>
      (fits_take .rightBrace _ (by decide)).bind fun closing =>
        Fits.pure (opening, body, closing)).mono ?_
  rintro used parts ⟨_, _, opening, rfl, ⟨rfl, isOpening⟩, first, _, body, rfl, derived, _,
    _, closing,
    rfl, ⟨rfl, isClosing⟩, rfl, rfl⟩
  exact .mk isOpening derived isClosing

theorem conditional_succ (within : FitsStmts depth) :
    Fits (conditionalWithin (depth + 1) inLoop) (IsConditional false inLoop) := by
  -- What stands behind the keyword of the alternative.
  have other : ∀ make : Stmt → Stmt,
      Fits (do
        if (← peek) == .ifKeyword then
          let alternative ← conditionalWithin depth inLoop
          return make alternative
        else
          let parts ← blockWithin depth inLoop
          return make (.block parts.1 parts.2.1 parts.2.2) : Parser Stmt)
        fun tokens statement => ∃ alternative, statement = make alternative ∧
          ∀ keyword : Token, keyword.kind = .elseKeyword →
            IsAlternative false inLoop (keyword :: tokens) (some alternative) := by
    intro make
    refine .peek fun next => .ite ?_ ?_
    · refine ((within.conditional inLoop).bind fun alternative =>
        Fits.pure (make alternative)).mono ?_
      rintro used statement ⟨first, second, alternative, rfl, derived, rfl, rfl⟩
      rw [List.append_nil]
      exact ⟨alternative, rfl, fun keyword isKeyword => .conditional isKeyword derived⟩
    · refine ((within.block inLoop).bind fun parts =>
        Fits.pure (make (.block parts.1 parts.2.1 parts.2.2))).mono ?_
      rintro used statement ⟨first, second, parts, rfl, derived, rfl, rfl⟩
      rw [List.append_nil]
      exact ⟨_, rfl, fun keyword isKeyword => .block isKeyword derived⟩
  rw [conditionalWithin]
  refine ((fits_take .ifKeyword "'if'" (by decide)).bind fun keyword =>
    (fits_condition "if").bind fun test => (within.block inLoop).bind fun parts =>
      Fits.skip (other fun alternative =>
          Stmt.conditional keyword.position test parts.1 parts.2.1 parts.2.2 (some alternative))
        (Fits.pure
          (Stmt.conditional keyword.position test parts.1 parts.2.1 parts.2.2 none))).mono ?_
  rintro used statement ⟨_, _, keyword, rfl, ⟨rfl, isKeyword⟩, _, _, test, rfl,
    ⟨left, testing, right, rfl, isLeft, isTest, isRight⟩, block, _, parts, rfl, isBlock,
    ⟨isElse, rest, rfl, kind, alternative, rfl, derived⟩ | ⟨rfl, rfl⟩⟩
  · simpa only [List.singleton_append, List.cons_append, List.nil_append, List.append_assoc] using
      IsConditional.mk isKeyword isLeft isTest isRight isBlock (derived isElse kind)
  · simpa only [List.singleton_append, List.cons_append, List.nil_append, List.append_assoc] using
      IsConditional.mk isKeyword isLeft isTest isRight isBlock .none

theorem while_succ (within : FitsStmts depth) :
    Fits (whileWithin (depth + 1)) (IsStmt false inLoop) := by
  rw [whileWithin]
  refine ((fits_take .whileKeyword "'while'" (by decide)).bind fun keyword =>
    (fits_condition "while").bind fun test => (within.block true).bind fun parts =>
      Fits.pure (Stmt.loop keyword none (some test) none parts.1 parts.2.1 parts.2.2)).mono ?_
  rintro used statement ⟨_, _, keyword, rfl, ⟨rfl, isKeyword⟩, _, _, test, rfl,
    ⟨left, testing, right, rfl, isLeft, isTest, isRight⟩, block, _, parts, rfl, isBlock, rfl, rfl⟩
  simpa only [List.singleton_append, List.cons_append, List.nil_append, List.append_assoc,
    List.append_nil] using IsStmt.while_ isKeyword isLeft isTest isRight isBlock

theorem for_succ (within : FitsStmts depth) :
    Fits (forWithin (depth + 1)) (IsStmt false inLoop) := by
  rw [forWithin]
  refine ((fits_take .forKeyword "'for'" (by decide)).bind fun keyword =>
    (fits_take .leftParen "'(' after 'for'" (by decide)).bind fun _ =>
      fits_loopStart.bind fun start => (fits_expressionUnless .semicolon).bind fun test =>
        (fits_take .semicolon "';' after loop condition" (by decide)).bind fun _ =>
          (fits_expressionUnless .rightParen).bind fun advance =>
            (fits_take .rightParen "')' after for clauses" (by decide)).bind fun _ =>
              (within.block true).bind fun parts => Fits.pure
                (Stmt.loop keyword start test advance parts.1 parts.2.1 parts.2.2)).mono ?_
  rintro used statement ⟨_, _, keyword, rfl, ⟨rfl, isKeyword⟩, _, _, left, rfl,
    ⟨rfl, isLeft⟩, starting,
    _, start, rfl, isStart, testing, _, test, rfl, isTest, _, _, middle, rfl, ⟨rfl, isMiddle⟩,
    advancing,
    _, advance, rfl, isAdvance, _, _, right, rfl, ⟨rfl, isRight⟩, block, _, parts, rfl,
    isBlock, rfl,
    rfl⟩
  simpa only [List.singleton_append, List.cons_append, List.nil_append, List.append_assoc,
    List.append_nil] using
    IsStmt.for_ isKeyword isLeft isStart isTest isMiddle isAdvance isRight isBlock

end FitsStmts

theorem fitsStmts (depth : Nat) : FitsStmts depth := by
  induction depth with
  | zero => exact fitsStmts_zero
  | succ depth within =>
      exact
        { statement := fun _ => within.statement_succ
          statements := fun _ => within.statements_succ
          block := fun _ => within.block_succ
          conditional := fun _ => within.conditional_succ
          while_ := fun _ => within.while_succ
          for_ := fun _ => within.for_succ }

theorem fits_statement : Fits statement (IsStmt false false) :=
  ⟨fun tokens => (((fitsStmts (4 * tokens.length + 4)).statement false).at_ tokens).congr rfl,
    productive_isStmt⟩

theorem fits_block : Fits block (IsBlock false false) :=
  ⟨fun tokens => (((fitsStmts (4 * tokens.length + 4)).block false).at_ tokens).congr rfl,
    productive_isBlock⟩

/-! ### Items -/

section Items

/-- Tokens are a parameter. -/
def IsParam : Language Param := fun tokens parameter =>
  ∃ typing, tokens = parameter.name.token :: typing ∧ parameter.name.token.kind = .identifier ∧
    IsType typing parameter.type

theorem fits_param : Fits param IsParam := by
  refine ((fits_identifier "parameter name").bind fun name => (fits_skip .colon).bind fun _ =>
    (fits_identifier "parameter type").bind fun type => Fits.pure (⟨name, type⟩ : Param)).mono ?_
  rintro used parameter ⟨_, _, name, rfl, ⟨rfl, isName⟩, _, _, found, rfl,
    ⟨rfl, colon, rfl, isColon⟩ | ⟨rfl, rfl⟩, _, _, type, rfl, ⟨rfl, isType⟩, rfl, rfl⟩
  · exact ⟨_, rfl, isName, .colon isColon isType⟩
  · exact ⟨_, rfl, isName, .plain isType⟩

theorem fits_paramsWithin (count : Nat) : Fits (paramsWithin count) AreSomeParams := by
  induction count with
  | zero =>
      obtain ⟨tokens, parameter, plain, typing, rfl, isName, isType⟩ := fits_param.productive
      exact .failHere .tooDeep ⟨_, _, plain, .one isName isType⟩
  | succ count ih =>
      rw [paramsWithin]
      refine (fits_param.bind fun first =>
        Fits.skip (ih.bind fun others => Fits.pure (first :: others)) (Fits.pure [first])).mono ?_
      rintro used parameters ⟨_, _, first, rfl, ⟨typing, rfl, isName, isType⟩,
        ⟨comma, rest, rfl, isComma, _, _, others, rfl, derived, rfl, rfl⟩ | ⟨rfl, rfl⟩⟩
      · rw [List.append_nil]
        exact .more isName isType isComma derived
      · rw [List.append_nil]
        exact .one isName isType

theorem fits_params : Fits params AreParams := by
  refine .peek fun next => .ite ?_ ?_
  · refine (Fits.pure []).mono ?_
    rintro used parameters ⟨rfl, rfl⟩
    exact .none
  · exact ⟨fun tokens => (((fits_paramsWithin (tokens.length + 1)).at_ tokens).mono
      fun _ _ => .some).congr rfl, [], [], .nil, .none⟩

/-- The result type of a function, if there is one. -/
def resultType : Parser (Option Identifier) := do
  if (← peek) == .identifier then some <$> identifier "result type" else pure none

/-- The body of a function. -/
def functionBody (make : Token × List Stmt × Token → FunctionDecl) : Parser FunctionDecl := do
  if (← peek) != .leftBrace then failHere .bodyExpected
  let parts ← block
  return make parts

theorem functionDeclaration_eq :
    functionDeclaration = (do
      let keyword ← take .funcKeyword "'func'"
      let name ← identifier "function name"
      let _ ← take .leftParen "'(' after function name"
      let parameters ← params
      let _ ← take .rightParen "')' after parameters"
      let result ← resultType
      functionBody fun parts =>
        ⟨keyword.position, name, parameters, result, parts.1, parts.2.1, parts.2.2⟩) := by
  refine bind_congr fun keyword => bind_congr fun name => bind_congr fun _ =>
    bind_congr fun parameters => bind_congr fun _ => ?_
  rw [resultType, bind_assoc]
  refine bind_congr fun next => ?_
  split <;> rfl

theorem fits_resultType : Fits resultType IsResult := by
  refine .peek fun next => .ite ((Fits.map some (fits_identifier "result type")).mono ?_)
    ((Fits.pure none).mono ?_)
  · rintro used type ⟨name, ⟨rfl, isName⟩, rfl⟩
    exact .some isName
  · rintro used type ⟨rfl, rfl⟩
    exact .none

theorem fits_functionBody (make : Token × List Stmt × Token → FunctionDecl) :
    Fits (functionBody make) fun tokens declaration =>
      ∃ parts, IsBlock false false tokens parts ∧ declaration = make parts := by
  have inBraces : Fits (do
      let parts ← block
      return make parts : Parser FunctionDecl)
      fun tokens declaration => ∃ parts, IsBlock false false tokens parts ∧
        declaration = make parts := by
    rw [← map_eq_pure_bind]
    exact Fits.map make fits_block
  refine .peek fun next => ?_
  split
  · exact .failHere _ inBraces.productive
  · exact inBraces

theorem fits_functionDeclaration : Fits functionDeclaration (IsFunction false) := by
  rw [functionDeclaration_eq]
  refine ((fits_take .funcKeyword "'func'" (by decide)).bind fun keyword =>
    (fits_identifier "function name").bind fun name =>
      (fits_take .leftParen "'(' after function name" (by decide)).bind fun _ =>
        fits_params.bind fun parameters =>
          (fits_take .rightParen "')' after parameters" (by decide)).bind fun _ =>
            fits_resultType.bind fun result => fits_functionBody fun parts =>
              ⟨keyword.position, name, parameters, result, parts.1, parts.2.1, parts.2.2⟩).mono ?_
  rintro used declaration ⟨_, _, keyword, rfl, ⟨rfl, isKeyword⟩, _, _, name, rfl,
    ⟨rfl, isName⟩, _, _,
    left, rfl, ⟨rfl, isLeft⟩, listing, _, parameters, rfl, isParams, _, _, right, rfl,
    ⟨rfl, isRight⟩,
    ending, block, type, rfl, isResult, parts, isBlock, rfl⟩
  simpa only [List.singleton_append, List.cons_append, List.nil_append, List.append_assoc] using
    IsFunction.mk isKeyword isName isLeft isParams isRight isResult isBlock

/-- An item, read as the kind of the next token tells. -/
def item (next : TokenKind) : Parser Item :=
  if next == .funcKeyword then Item.function <$> functionDeclaration
    else Item.statement <$> statement

theorem itemsWithin_succ (count : Nat) :
    itemsWithin (count + 1) = (do
      let next ← peek
      if next == .eof then return []
      let item ← item next
      let others ← itemsWithin count
      return item :: others) := by
  rw [itemsWithin]
  refine bind_congr fun next => ?_
  rw [item]
  split
  · rfl
  · split <;> rfl

theorem fits_item (next : TokenKind) :
    Fits (item next) fun tokens item =>
      (∃ declaration, IsFunction false tokens declaration ∧ item = .function declaration) ∨
        ∃ statement, IsStmt false false tokens statement ∧ item = .statement statement :=
  .ite ((Fits.map _ fits_functionDeclaration).mono fun _ _ => .inl)
    ((Fits.map _ fits_statement).mono fun _ _ => .inr)

theorem fits_itemsWithin (count : Nat) : Fits (itemsWithin count) (AreItems false) := by
  induction count with
  | zero => exact .failHere .tooDeep ⟨[], [], .nil, .none⟩
  | succ count ih =>
      rw [itemsWithin_succ]
      refine .peek fun next => .ite ?_ ?_
      · refine (Fits.pure []).mono ?_
        rintro used items ⟨rfl, rfl⟩
        exact .none
      · refine ((fits_item next).bind fun item => ih.bind fun others =>
          Fits.pure (item :: others)).mono ?_
        rintro used items ⟨first, _, item, rfl,
          ⟨declaration, derived, rfl⟩ | ⟨statement, derived, rfl⟩, rest, _, others, rfl,
          isOthers, rfl,
          rfl⟩
        · rw [List.append_nil]
          exact .function derived isOthers
        · rw [List.append_nil]
          exact .statement derived isOthers

theorem fits_items : Fits items (AreItems false) :=
  ⟨fun tokens => ((fits_itemsWithin (tokens.length + 1)).at_ tokens).congr rfl, [], [], .nil, .none⟩

end Items

end ScriptCompiler.Parser
