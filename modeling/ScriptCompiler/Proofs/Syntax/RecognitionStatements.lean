import ScriptCompiler.Proofs.Syntax.Recognition

/-!
# Statements and programs of the grammar are read

What the strict form of the grammar derives as a clause, a statement, a function or a program is
read and gives the tree of the derivation.  Only the end of a conditional depends on what follows:
an `else` would belong to it.
-/

namespace ScriptCompiler.Parser

open Grammar

section Clauses

variable {tokens rest : List Token}

theorem upcomingLevel_of_upcoming {kind : TokenKind} (isKind : upcoming rest = kind)
    (noOperator : Precedence.ofOperator kind = .none) : upcomingLevel rest = 0 := by
  rw [upcomingLevel, isKind, noOperator]
  rfl

theorem expressionUnless_reads {kind : TokenKind} {value : Option Expr}
    (derived : IsOptional tokens value) (isKind : upcoming rest = kind)
    (noOperator : Precedence.ofOperator kind = .none) (noStarter : kind ∉ starters) :
    expressionUnless kind (tokens ++ rest) = .ok (value, rest) := by
  rw [expressionUnless, peek_bind]
  cases derived with
  | none =>
      rw [List.nil_append, isKind, if_pos (beq_self_eq_true kind)]
      rfl
  | some inner =>
      have other : (upcoming (tokens ++ rest) == kind) = false := by
        rw [beq_eq_false_iff_ne]
        rintro rfl
        exact noStarter (IsExpr.starts inner rest)
      rw [other]
      exact bind_eq_ok.mpr ⟨_, rest,
        expression_reads inner (upcomingLevel_of_upcoming isKind noOperator), rfl⟩

theorem expressionStatement_reads {statement : ExprStmt} (derived : IsExprStmt tokens statement) :
    expressionStatement (tokens ++ rest) = .ok (statement, rest) := by
  cases derived with
  | mk expression isSemicolon =>
      rw [List.append_assoc]
      exact bind_eq_ok.mpr ⟨_, _, expression_reads expression
        (upcomingLevel_of_upcoming isSemicolon rfl),
          bind_eq_ok.mpr ⟨_, rest, take_reads isSemicolon, rfl⟩⟩

theorem declaredType_reads {type : Option Identifier} (derived : IsDeclaredType tokens type)
    (noColon : upcoming rest ≠ .colon) (noName : upcoming rest ≠ .identifier) :
    declaredType (tokens ++ rest) = .ok (type, rest) := by
  cases derived with
  | none =>
      refine bind_eq_ok.mpr ⟨false, rest, skip_passes noColon, ?_⟩
      rw [if_neg (by decide), peek_bind, if_neg (by simpa using noName)]
      rfl
  | some typed =>
      cases typed with
      | @plain name isName =>
          refine bind_eq_ok.mpr ⟨false, name :: rest, skip_passes ?_, ?_⟩
          · change name.kind ≠ .colon
            rw [isName]
            decide
          · rw [if_neg (by decide), peek_bind, upcoming_cons, if_pos (beq_iff_eq.mpr isName)]
            exact bind_eq_ok.mpr ⟨_, rest, identifier_reads isName, rfl⟩
      | @colon colon name isColon isName =>
          refine bind_eq_ok.mpr ⟨true, name :: rest, skip_reads isColon, ?_⟩
          exact bind_eq_ok.mpr ⟨_, rest, identifier_reads isName, rfl⟩

theorem declarationEnd_reads {keyword semicolon : Token} {name : Identifier}
    {type : Option Identifier} {initial : Option Expr} (derived : IsInitial tokens initial)
    (given : type.isSome ∨ initial.isSome) (isSemicolon : semicolon.kind = .semicolon) :
    declarationEnd keyword name type (tokens ++ semicolon :: rest) =
      .ok (⟨keyword.position, name, type, initial, semicolon⟩, rest) := by
  have known : (type.isNone && initial.isNone) = false := by
    rcases given with given | given
    · simp [Option.isNone_eq_false_iff.mpr given]
    · simp [Option.isNone_eq_false_iff.mpr given]
  have ending : (do
      if type.isNone && initial.isNone then failHere (.typeOrValueExpected name.name)
      let semicolon ← take .semicolon "';' after variable declaration"
      return ⟨keyword.position, name, type, initial, semicolon⟩ : Parser VarDecl)
        (semicolon :: rest) =
      .ok (⟨keyword.position, name, type, initial, semicolon⟩, rest) := by
    rw [known]
    exact bind_eq_ok.mpr ⟨_, rest, take_reads isSemicolon, rfl⟩
  cases derived with
  | none =>
      refine bind_eq_ok.mpr ⟨false, semicolon :: rest, skip_passes ?_, ?_⟩
      · change semicolon.kind ≠ .assign
        rw [isSemicolon]
        decide
      · exact bind_eq_ok.mpr ⟨none, _, rfl, ending⟩
  | @some equals tokens value isEquals derived =>
      refine bind_eq_ok.mpr ⟨true, tokens ++ semicolon :: rest, skip_reads isEquals, ?_⟩
      have read := expression_reads derived (upcomingLevel_of_upcoming
        (show upcoming (semicolon :: rest) = .semicolon from isSemicolon) rfl)
      refine bind_eq_ok.mpr ⟨some value, semicolon :: rest, ?_, ending⟩
      rw [map_eq_pure_bind]
      exact bind_eq_ok.mpr ⟨value, _, read, rfl⟩

theorem variableDeclaration_reads {declaration : VarDecl} (derived : IsVarDecl tokens declaration) :
    variableDeclaration (tokens ++ rest) = .ok (declaration, rest) := by
  cases derived with
  | @mk keyword name semicolon typing initialising type initial isKeyword isName isType
      isInitial given isSemicolon =>
      have behind : ∀ kind, kind ≠ .assign → kind ≠ .semicolon →
          upcoming (initialising ++ semicolon :: rest) ≠ kind := by
        rintro kind noAssign noSemicolon rfl
        cases isInitial with
        | none => exact noSemicolon isSemicolon
        | some isEquals _ => exact noAssign isEquals
      rw [variableDeclaration_eq, List.cons_append, List.cons_append, List.append_assoc,
        List.append_assoc, List.singleton_append]
      exact bind_eq_ok.mpr
        ⟨_, _, take_reads isKeyword, bind_eq_ok.mpr ⟨_, _, identifier_reads isName,
        bind_eq_ok.mpr ⟨_, _, declaredType_reads isType (behind _ (by decide) (by decide))
          (behind _ (by decide) (by decide)), declarationEnd_reads isInitial given isSemicolon⟩⟩⟩

theorem condition_reads {keyword : Bytes} {left right : Token} {test : Expr}
    (isLeft : left.kind = .leftParen) (derived : IsExpr .assignment tokens test)
    (isRight : right.kind = .rightParen) :
    condition keyword (left :: (tokens ++ right :: rest)) = .ok (test, rest) :=
  bind_eq_ok.mpr
    ⟨_, _, take_reads isLeft, bind_eq_ok.mpr ⟨_, right :: rest, expression_reads derived
    (upcomingLevel_of_upcoming isRight rfl), bind_eq_ok.mpr ⟨_, _, take_reads isRight, rfl⟩⟩⟩

theorem IsVarDecl.starts {declaration : VarDecl} (derived : IsVarDecl tokens declaration)
    (rest : List Token) : upcoming (tokens ++ rest) = .varKeyword := by
  cases derived with
  | mk isKeyword => exact isKeyword

theorem IsExprStmt.starts {statement : ExprStmt} (derived : IsExprStmt tokens statement)
    (rest : List Token) : upcoming (tokens ++ rest) ∈ starters := by
  cases derived with
  | mk expression isSemicolon =>
      rw [List.append_assoc]
      exact IsExpr.starts expression _

theorem loopStart_reads {start : Option LoopStart} (derived : IsLoopStart false tokens start) :
    loopStart (tokens ++ rest) = .ok (start, rest) := by
  cases derived with
  | none isSemicolon => exact bind_eq_ok.mpr ⟨true, rest, skip_reads isSemicolon, rfl⟩
  | omitted loose => cases loose
  | «variable» declaration =>
      have starts := IsVarDecl.starts declaration rest
      refine bind_eq_ok.mpr ⟨false, _, skip_passes (by rw [starts]; decide), ?_⟩
      rw [if_neg (by decide), peek_bind, starts]
      exact bind_eq_ok.mpr ⟨_, _, variableDeclaration_reads declaration, rfl⟩
  | expression statement =>
      have starts := IsExprStmt.starts statement rest
      have different : ∀ kind, kind ∉ starters → upcoming (tokens ++ rest) ≠ kind := by
        rintro kind other rfl
        exact other starts
      refine bind_eq_ok.mpr ⟨false, _, skip_passes (different _ (by decide)), ?_⟩
      rw [if_neg (by decide), peek_bind, if_neg (by simpa using different .varKeyword (by decide))]
      exact bind_eq_ok.mpr ⟨_, _, expressionStatement_reads statement, rfl⟩

theorem returnStatement_reads {keyword semicolon : Token} {value : Option Expr}
    (isKeyword : keyword.kind = .returnKeyword) (derived : IsOptional tokens value)
    (isSemicolon : semicolon.kind = .semicolon) :
    returnStatement (keyword :: (tokens ++ semicolon :: rest)) =
      .ok (.return_ keyword.position value semicolon, rest) :=
  bind_eq_ok.mpr ⟨_, _, take_reads isKeyword, bind_eq_ok.mpr ⟨_, semicolon :: rest,
    expressionUnless_reads derived isSemicolon rfl (by decide),
    bind_eq_ok.mpr ⟨_, _, take_reads isSemicolon, rfl⟩⟩⟩

end Clauses

/-! ### Statements -/

section Statements

/-- The kinds of tokens that statements start with. -/
def statementStarters : List TokenKind :=
  starters ++ [.varKeyword, .ifKeyword, .whileKeyword, .forKeyword, .returnKeyword, .breakKeyword,
    .continueKeyword, .leftBrace]

variable {inLoop : Bool} {tokens rest : List Token}

theorem IsBlock.starts {parts : Token × List Stmt × Token}
    (derived : IsBlock false inLoop tokens parts)
    (rest : List Token) : upcoming (tokens ++ rest) = .leftBrace := by
  cases derived with
  | mk isOpening => exact isOpening

theorem IsConditional.starts {statement : Stmt}
    (derived : IsConditional false inLoop tokens statement)
    (rest : List Token) : upcoming (tokens ++ rest) = .ifKeyword := by
  cases derived with
  | mk isKeyword => exact isKeyword

theorem IsStmt.starts {statement : Stmt} (derived : IsStmt false inLoop tokens statement)
    (rest : List Token) : upcoming (tokens ++ rest) ∈ statementStarters := by
  cases derived with
  | expression expression => exact List.mem_append_left _ (IsExprStmt.starts expression rest)
  | «variable» declaration =>
      rw [IsVarDecl.starts declaration]
      decide
  | block block =>
      rw [IsBlock.starts block]
      decide
  | conditional conditional =>
      rw [IsConditional.starts conditional]
      decide
  | while_ isKeyword | for_ isKeyword | return_ isKeyword | break_ isKeyword
  | continue_ isKeyword =>
      change Token.kind _ ∈ statementStarters
      rw [isKeyword]
      decide

theorem reads_statements_none (closes : upcoming rest = .rightBrace) :
    Reads (statementsWithin · inLoop) rest [] rest := by
  refine reads_pure.deeper fun depth => ?_
  rw [statementsWithin, peek_bind, closes]
  rfl

theorem reads_statements_more {middle : List Token} {statement : Stmt} {others : List Stmt}
    (starts : upcoming tokens ∈ statementStarters)
    (first : Reads (statementWithin · inLoop) tokens statement middle)
    (later : Reads (statementsWithin · inLoop) middle others rest) :
    Reads (statementsWithin · inLoop) tokens (statement :: others) rest := by
  have goesOn : ¬ (upcoming tokens == .rightBrace || upcoming tokens == .eof) = true := by
    intro ends
    rcases Bool.or_eq_true .. ▸ ends with closes | closes <;>
    · rw [eq_of_beq closes] at starts
      exact absurd starts (by decide)
  obtain ⟨enough, runs⟩ := first.both later
  refine Reads.deeper ⟨enough, fun depth deep => ?_⟩ fun depth => by rw [statementsWithin]
  obtain ⟨firstRun, laterRun⟩ := runs depth deep
  rw [peek_bind, if_neg goesOn]
  exact bind_eq_ok.mpr ⟨_, _, firstRun, bind_eq_ok.mpr ⟨_, _, laterRun, rfl⟩⟩

theorem reads_block {opening closing : Token} {body : List Stmt}
    (isOpening : opening.kind = .leftBrace) (isClosing : closing.kind = .rightBrace)
    (inner : Reads (statementsWithin · inLoop) (tokens ++ closing :: rest) body (closing :: rest)) :
    Reads (blockWithin · inLoop) (opening :: (tokens ++ closing :: rest)) (opening, body, closing)
      rest := by
  obtain ⟨enough, run⟩ := inner
  refine Reads.deeper ⟨enough, fun depth deep => ?_⟩ fun depth => by rw [blockWithin]
  exact bind_eq_ok.mpr ⟨_, _, take_reads isOpening, bind_eq_ok.mpr ⟨_, _, run depth deep,
    bind_eq_ok.mpr ⟨_, _, take_reads isClosing, rfl⟩⟩⟩

/-- The alternative of a conditional. -/
def alternativeWithin (depth : Nat) (inLoop : Bool) (make : Option Stmt → Stmt) : Parser Stmt := do
  if ← skip .elseKeyword then
    if (← peek) == .ifKeyword then
      let alternative ← conditionalWithin depth inLoop
      return make (some alternative)
    else
      let (first, body, last) ← blockWithin depth inLoop
      return make (some (.block first body last))
  else return make none

theorem reads_conditional {keyword left right : Token} {testing middle : List Token} {test : Expr}
    {parts : Token × List Stmt × Token} {alternative : Option Stmt}
    (isKeyword : keyword.kind = .ifKeyword) (isLeft : left.kind = .leftParen)
    (isTest : IsExpr .assignment testing test) (isRight : right.kind = .rightParen)
    (block : Reads (blockWithin · inLoop) tokens parts middle)
    (other : ∀ make, Reads (alternativeWithin · inLoop make) middle (make alternative) rest) :
    Reads (conditionalWithin · inLoop) (keyword :: left :: (testing ++ right :: tokens))
      (.conditional keyword.position test parts.1 parts.2.1 parts.2.2 alternative) rest := by
  obtain ⟨enough, runs⟩ :=
    block.both (other (.conditional keyword.position test parts.1 parts.2.1 parts.2.2))
  refine Reads.deeper ⟨enough, fun depth deep => ?_⟩ fun depth => by rw [conditionalWithin]
  obtain ⟨blockRun, otherRun⟩ := runs depth deep
  exact bind_eq_ok.mpr ⟨_, _, take_reads isKeyword, bind_eq_ok.mpr ⟨_, _,
    condition_reads isLeft isTest isRight, bind_eq_ok.mpr ⟨_, _, blockRun, otherRun⟩⟩⟩

theorem reads_while {keyword left right : Token} {testing : List Token} {test : Expr}
    {parts : Token × List Stmt × Token} (isKeyword : keyword.kind = .whileKeyword)
    (isLeft : left.kind = .leftParen) (isTest : IsExpr .assignment testing test)
    (isRight : right.kind = .rightParen) (block : Reads (blockWithin · true) tokens parts rest) :
    Reads whileWithin (keyword :: left :: (testing ++ right :: tokens))
      (.loop keyword none (some test) none parts.1 parts.2.1 parts.2.2) rest := by
  obtain ⟨enough, run⟩ := block
  refine Reads.deeper ⟨enough, fun depth deep => ?_⟩ fun depth => by rw [whileWithin]
  exact bind_eq_ok.mpr ⟨_, _, take_reads isKeyword, bind_eq_ok.mpr ⟨_, _,
    condition_reads isLeft isTest isRight, bind_eq_ok.mpr ⟨_, _, run depth deep, rfl⟩⟩⟩

theorem reads_for {keyword left middle right : Token} {starting testing advancing : List Token}
    {start : Option LoopStart} {test advance : Option Expr} {parts : Token × List Stmt × Token}
    (isKeyword : keyword.kind = .forKeyword) (isLeft : left.kind = .leftParen)
    (isStart : IsLoopStart false starting start) (isTest : IsOptional testing test)
    (isMiddle : middle.kind = .semicolon) (isAdvance : IsOptional advancing advance)
    (isRight : right.kind = .rightParen) (block : Reads (blockWithin · true) tokens parts rest) :
    Reads forWithin
      (keyword :: left :: (starting ++ (testing ++ middle :: (advancing ++ right :: tokens))))
      (.loop keyword start test advance parts.1 parts.2.1 parts.2.2) rest := by
  obtain ⟨enough, run⟩ := block
  refine Reads.deeper ⟨enough, fun depth deep => ?_⟩ fun depth => by rw [forWithin]
  have tested := expressionUnless_reads isTest
    (show upcoming (middle :: (advancing ++ right :: tokens)) = .semicolon from isMiddle) rfl
      (by decide)
  have advanced := expressionUnless_reads isAdvance
    (show upcoming (right :: tokens) = .rightParen from isRight) rfl (by decide)
  exact bind_eq_ok.mpr ⟨_, _, take_reads isKeyword, bind_eq_ok.mpr ⟨_, _, take_reads isLeft,
    bind_eq_ok.mpr ⟨_, _, loopStart_reads isStart, bind_eq_ok.mpr ⟨_, _, tested,
      bind_eq_ok.mpr ⟨_, _, take_reads isMiddle, bind_eq_ok.mpr ⟨_, _, advanced,
        bind_eq_ok.mpr ⟨_, _, take_reads isRight, bind_eq_ok.mpr ⟨_, _, run depth deep, rfl⟩⟩⟩⟩⟩⟩⟩⟩

theorem reads_jump {keyword semicolon : Token} {statement : Stmt}
    (isJump : keyword.kind = .breakKeyword ∨ keyword.kind = .continueKeyword)
    (isSemicolon : semicolon.kind = .semicolon)
    (same : statement = if keyword.kind == .breakKeyword then
      .break_ keyword else .continue_ keyword) :
    Reads (statementWithin · true) (keyword :: semicolon :: rest) statement rest := by
  have jump : jumpStatement true (keyword :: semicolon :: rest) = .ok (statement, rest) :=
    bind_eq_ok.mpr ⟨_, _, take_reads isSemicolon, by rw [same]; rfl⟩
  refine (Reads.of_eq jump).deeper fun depth => ?_
  rw [statementWithin, peek_bind, upcoming_cons]
  rcases isJump with isKind | isKind <;> rw [isKind]

theorem statementWithin_expression {depth : Nat} (starts : upcoming tokens ∈ starters) :
    statementWithin (depth + 1) inLoop tokens =
      (do return .expression (← expressionStatement) : Parser Stmt) tokens := by
  rw [statementWithin, peek_bind]
  generalize upcoming tokens = kind at starts ⊢
  cases kind <;> first | rfl | exact absurd starts (by decide)

mutual

theorem IsStmt.reads {inLoop : Bool} {tokens : List Token} {statement : Stmt} :
    IsStmt false inLoop tokens statement → ∀ rest, upcoming rest ≠ .elseKeyword →
      Reads (statementWithin · inLoop) (tokens ++ rest) statement rest
  | .expression expression => by
      intro rest _
      have starts := IsExprStmt.starts expression rest
      refine (Reads.of_eq (expressionStatement_reads expression)).return_ Stmt.expression |>.deeper
        fun depth => statementWithin_expression starts
  | .variable declaration => by
      intro rest _
      refine (Reads.of_eq (variableDeclaration_reads declaration)).return_ Stmt.variable |>.deeper
        fun depth => ?_
      rw [statementWithin, peek_bind, IsVarDecl.starts declaration]
  | @IsStmt.block _ inLoop tokens opening closing body block => by
      intro rest _
      obtain ⟨enough, run⟩ := IsBlock.reads block rest
      refine Reads.deeper ⟨enough, fun depth deep => ?_⟩ fun depth => by
        rw [statementWithin, peek_bind, IsBlock.starts block]
      exact bind_eq_ok.mpr ⟨_, _, run depth deep, rfl⟩
  | .conditional conditional => by
      intro rest noElse
      refine (IsConditional.reads conditional rest noElse).deeper fun depth => ?_
      rw [statementWithin, peek_bind, IsConditional.starts conditional]
  | .while_ isKeyword isLeft isTest isRight block => by
      intro rest _
      have loop := reads_while isKeyword isLeft isTest isRight (IsBlock.reads block rest)
      simp only [List.cons_append, List.append_assoc]
      refine loop.deeper fun depth => ?_
      rw [statementWithin, peek_bind, upcoming_cons, isKeyword]
  | .for_ isKeyword isLeft isStart isTest isMiddle isAdvance isRight block => by
      intro rest _
      have loop := reads_for isKeyword isLeft isStart isTest isMiddle isAdvance isRight
        (IsBlock.reads block rest)
      simp only [List.cons_append, List.append_assoc]
      refine loop.deeper fun depth => ?_
      rw [statementWithin, peek_bind, upcoming_cons, isKeyword]
  | .return_ isKeyword isValue isSemicolon => by
      intro rest _
      rw [List.cons_append, List.append_assoc, List.singleton_append]
      refine (Reads.of_eq (returnStatement_reads isKeyword isValue isSemicolon)).deeper
        fun depth => ?_
      rw [statementWithin, peek_bind, upcoming_cons, isKeyword]
  | .break_ isKeyword isSemicolon => by
      intro rest _
      exact reads_jump (.inl isKeyword) isSemicolon (by rw [isKeyword]; rfl)
  | .continue_ isKeyword isSemicolon => by
      intro rest _
      exact reads_jump (.inr isKeyword) isSemicolon (by rw [isKeyword]; rfl)

theorem AreStmts.reads {inLoop : Bool} {tokens : List Token} {statements : List Stmt} :
    AreStmts false inLoop tokens statements → ∀ rest, upcoming rest = .rightBrace →
      upcoming (tokens ++ rest) ≠ .elseKeyword ∧
        Reads (statementsWithin · inLoop) (tokens ++ rest) statements rest
  | .none =>
      fun rest closes => ⟨by rw [List.nil_append, closes]; decide, reads_statements_none closes⟩
  | .more statement others => by
      intro rest closes
      obtain ⟨noElse, later⟩ := AreStmts.reads others rest closes
      rw [List.append_assoc]
      have starts := IsStmt.starts statement
      refine ⟨?_, reads_statements_more (starts _) (IsStmt.reads statement _ noElse) later⟩
      intro isElse
      exact absurd (isElse ▸ starts _) (by decide)

theorem IsBlock.reads {inLoop : Bool} {tokens : List Token} {parts : Token × List Stmt × Token} :
    IsBlock false inLoop tokens parts → ∀ rest,
      Reads (blockWithin · inLoop) (tokens ++ rest) parts rest
  | @IsBlock.mk _ inLoop opening closing tokens body isOpening derived isClosing => by
      intro rest
      rw [List.cons_append, List.append_assoc, List.singleton_append]
      exact reads_block isOpening isClosing (AreStmts.reads derived (closing :: rest) isClosing).2

theorem IsConditional.reads {inLoop : Bool} {tokens : List Token} {statement : Stmt} :
    IsConditional false inLoop tokens statement → ∀ rest, upcoming rest ≠ .elseKeyword →
      Reads (conditionalWithin · inLoop) (tokens ++ rest) statement rest
  | .mk isKeyword isLeft isTest isRight block alternative => by
      intro rest noElse
      simp only [List.cons_append, List.append_assoc]
      exact reads_conditional isKeyword isLeft isTest isRight (IsBlock.reads block _)
        (IsAlternative.reads alternative rest noElse)

theorem IsAlternative.reads {inLoop : Bool} {tokens : List Token} {alternative : Option Stmt} :
    IsAlternative false inLoop tokens alternative → ∀ rest, upcoming rest ≠ .elseKeyword → ∀ make,
      Reads (alternativeWithin · inLoop make) (tokens ++ rest) (make alternative) rest
  | .none => by
      intro rest noElse make
      exact ⟨0, fun depth _ => bind_eq_ok.mpr ⟨false, rest, skip_passes noElse, rfl⟩⟩
  | .block isKeyword block => by
      intro rest _ make
      obtain ⟨enough, run⟩ := IsBlock.reads block rest
      refine ⟨enough, fun depth deep => ?_⟩
      rw [List.cons_append]
      refine bind_eq_ok.mpr ⟨true, _, skip_reads isKeyword, ?_⟩
      rw [if_pos rfl, peek_bind, IsBlock.starts block]
      exact bind_eq_ok.mpr ⟨_, _, run depth deep, rfl⟩
  | .conditional isKeyword conditional => by
      intro rest noElse make
      obtain ⟨enough, run⟩ := IsConditional.reads conditional rest noElse
      refine ⟨enough, fun depth deep => ?_⟩
      rw [List.cons_append]
      refine bind_eq_ok.mpr ⟨true, _, skip_reads isKeyword, ?_⟩
      rw [if_pos rfl, peek_bind, IsConditional.starts conditional]
      exact bind_eq_ok.mpr ⟨_, _, run depth deep, rfl⟩

end

end Statements

/-! ### Items -/

section Items

variable {tokens rest : List Token}

theorem statement_reads {content : Stmt} (derived : IsStmt false false tokens content)
    (noElse : upcoming rest ≠ .elseKeyword) : statement (tokens ++ rest) = .ok (content, rest) :=
  (IsStmt.reads derived rest noElse).at_ (fun deep => (agreeStmts deep).statement false)
    ((settlesStmts _).statement false (by omega))

theorem block_reads {parts : Token × List Stmt × Token}
    (derived : IsBlock false false tokens parts) :
    block (tokens ++ rest) = .ok (parts, rest) :=
  (IsBlock.reads derived rest).at_ (fun deep => (agreeStmts deep).block false)
    ((settlesStmts _).block false (by omega))

theorem param_reads {name : Token} {type : Identifier} (isName : name.kind = .identifier)
    (isType : IsType tokens type) :
    param (name :: (tokens ++ rest)) = .ok (⟨⟨name⟩, type⟩, rest) := by
  refine bind_eq_ok.mpr ⟨_, _, identifier_reads isName, ?_⟩
  cases isType with
  | @plain typeName isTypeName =>
      have noColon : upcoming (typeName :: rest) ≠ .colon := by
        rw [upcoming_cons, isTypeName]
        decide
      exact bind_eq_ok.mpr ⟨_, _, skip_passes noColon,
        bind_eq_ok.mpr ⟨_, _, identifier_reads isTypeName, rfl⟩⟩
  | colon isColon isTypeName =>
      exact bind_eq_ok.mpr ⟨_, _, skip_reads isColon,
        bind_eq_ok.mpr ⟨_, _, identifier_reads isTypeName, rfl⟩⟩

theorem AreSomeParams.reads {parameters : List Param} (derived : AreSomeParams tokens parameters)
    (closes : upcoming rest = .rightParen) :
    Reads paramsWithin (tokens ++ rest) parameters rest := by
  induction derived with
  | one isName isType =>
      refine Reads.deeper ⟨0, fun count _ => ?_⟩ fun count => by rw [paramsWithin]
      exact bind_eq_ok.mpr ⟨_, _, param_reads isName isType,
        bind_eq_ok.mpr ⟨_, _, skip_passes (by rw [closes]; decide), rfl⟩⟩
  | more isName isType isComma _ ih =>
      obtain ⟨enough, run⟩ := ih
      refine Reads.deeper ⟨enough, fun count high => ?_⟩ fun count => by rw [paramsWithin]
      rw [List.cons_append, List.append_assoc, List.cons_append]
      exact bind_eq_ok.mpr ⟨_, _, param_reads isName isType,
        bind_eq_ok.mpr ⟨_, _, skip_reads isComma,
        bind_eq_ok.mpr ⟨_, _, run count high, rfl⟩⟩⟩

theorem params_reads {parameters : List Param} (derived : AreParams tokens parameters)
    (closes : upcoming rest = .rightParen) : params (tokens ++ rest) = .ok (parameters, rest) := by
  rw [params, peek_bind]
  cases derived with
  | none =>
      rw [List.nil_append, closes]
      rfl
  | some derived =>
      have starts : upcoming (tokens ++ rest) = .identifier := by
        cases derived with
        | one isName | more isName => exact isName
      rw [starts]
      exact (AreSomeParams.reads derived closes).at_ (fun high => agrees_paramsWithin high)
        (settles_paramsWithin (Nat.lt_succ_self _))

theorem functionDeclaration_reads {declaration : FunctionDecl}
    (derived : IsFunction false tokens declaration) :
    functionDeclaration (tokens ++ rest) = .ok (declaration, rest) := by
  cases derived with
  | @mk keyword name left right opening closing listing ending block parameters result
      body isKeyword isName isLeft isParams isRight isResult isBlock =>
      have starts : upcoming (block ++ rest) = .leftBrace := IsBlock.starts isBlock rest
      have typed : resultType (ending ++ (block ++ rest)) = .ok (result, block ++ rest) := by
        rw [resultType, peek_bind]
        cases isResult with
        | none =>
            rw [List.nil_append, starts]
            rfl
        | some isType =>
            rw [List.singleton_append, upcoming_cons, isType, if_pos (by decide), map_eq_pure_bind]
            exact bind_eq_ok.mpr ⟨_, _, identifier_reads isType, rfl⟩
      have bodied : ∀ make, functionBody make (block ++ rest) =
          .ok (make (opening, body, closing), rest) := by
        intro make
        rw [functionBody, peek_bind, starts]
        exact bind_eq_ok.mpr ⟨_, _, block_reads isBlock, rfl⟩
      rw [functionDeclaration_eq]
      simp only [List.cons_append, List.append_assoc]
      exact bind_eq_ok.mpr
        ⟨_, _, take_reads isKeyword, bind_eq_ok.mpr ⟨_, _, identifier_reads isName,
        bind_eq_ok.mpr ⟨_, _, take_reads isLeft, bind_eq_ok.mpr ⟨_, _,
          params_reads isParams (show upcoming (right :: (ending ++ (block ++ rest))) =
            _ from isRight),
          bind_eq_ok.mpr ⟨_, _, take_reads isRight, bind_eq_ok.mpr ⟨_, _, typed, bodied _⟩⟩⟩⟩⟩⟩

theorem IsFunction.starts {declaration : FunctionDecl}
    (derived : IsFunction false tokens declaration)
    (rest : List Token) : upcoming (tokens ++ rest) = .funcKeyword := by
  cases derived with
  | mk isKeyword => exact isKeyword

theorem AreItems.noElse {items : List Item} (derived : AreItems false tokens items) :
    upcoming tokens ≠ .elseKeyword := by
  cases derived with
  | none => decide
  | function declaration =>
      rw [IsFunction.starts declaration]
      decide
  | statement statement =>
      intro isElse
      exact absurd (isElse ▸ IsStmt.starts statement _) (by decide)

theorem AreItems.reads {items : List Item} (derived : AreItems false tokens items) :
    Reads itemsWithin tokens items [] := by
  induction derived with
  | none => exact reads_pure.deeper fun count => by rw [itemsWithin_succ, peek_bind]; rfl
  | @function first rest declaration others isFunction _ ih =>
      obtain ⟨enough, run⟩ := ih
      refine Reads.deeper ⟨enough, fun count high => ?_⟩ fun count => by rw [itemsWithin_succ]
      have read : item .funcKeyword (first ++ rest) = .ok (.function declaration, rest) := by
        rw [item, if_pos (by decide), map_eq_pure_bind]
        exact bind_eq_ok.mpr ⟨_, _, functionDeclaration_reads isFunction, rfl⟩
      rw [peek_bind, IsFunction.starts isFunction, if_neg (by decide)]
      exact bind_eq_ok.mpr ⟨_, _, read, bind_eq_ok.mpr ⟨_, _, run count high, rfl⟩⟩
  | @statement first rest content others isStmt isOthers ih =>
      obtain ⟨enough, run⟩ := ih
      refine Reads.deeper ⟨enough, fun count high => ?_⟩ fun count => by rw [itemsWithin_succ]
      have starts := IsStmt.starts isStmt rest
      have different : ∀ kind, kind ∉ statementStarters → ¬ (upcoming (first ++ rest) == kind) =
        true := by
        intro kind other same
        exact other (eq_of_beq same ▸ starts)
      have read : item (upcoming (first ++ rest)) (first ++ rest) =
        .ok (.statement content, rest) := by
        rw [item, if_neg (different _ (by decide)), map_eq_pure_bind]
        exact bind_eq_ok.mpr ⟨_, _, statement_reads isStmt (AreItems.noElse isOthers), rfl⟩
      rw [peek_bind, if_neg (different _ (by decide))]
      exact bind_eq_ok.mpr ⟨_, _, read, bind_eq_ok.mpr ⟨_, _, run count high, rfl⟩⟩

theorem items_reads {contents : List Item} (derived : AreItems false tokens contents) :
    items tokens = .ok (contents, []) :=
  (AreItems.reads derived).at_ (fun high => agrees_itemsWithin high)
    (settles_itemsWithin (Nat.lt_succ_self _))

end Items

end ScriptCompiler.Parser
