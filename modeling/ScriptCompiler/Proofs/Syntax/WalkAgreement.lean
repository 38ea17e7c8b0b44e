import ScriptCompiler.Proofs.Syntax.WalkBounds

/-!
# Cursors and lists of tokens

A parser with a cursor and the one on the list of the tokens before the end of the input do the same
(`Walk.Mirrors`): they take the same tokens, give the same value and fail for the same reason at the
same token.  So on any tokens whatever, parsing with a cursor ends inside of them with the program
or the diagnostic that the tokens have (`Walk.program_inside`).
-/

open ScriptCompiler.Grammar ScriptCompiler.Parser

namespace ScriptCompiler

theorem TokenSlice.kind_present (slice : TokenSlice) (rest : List Token) :
    (slice.present rest).kind = upcoming rest := by
  cases rest with
  | nil => exact slice.kind_stop
  | cons token rest => rfl

namespace Walk

variable {α β : Type} {slice : TokenSlice} {start : Stand}

/-- How a token of the slice is named in a syntax error. -/
inductive Blames (slice : TokenSlice) : Option Token → Token → Prop where
  | word {token : Token} (plain : token.kind ≠ .eof) : Blames slice (some token) token
  | stop : Blames slice none slice.stop

/-- A walk ends as the parser of a list does, unless one of the two runs out of depth. -/
inductive Repeats (slice : TokenSlice) :
    Except SyntaxError (α × List Token) → Option (Except Halt α × Stand) → Prop where
  | value {value : α} {final : Stand} {later : List Token} (ahead : slice.Ahead final later) :
      Repeats slice (.ok (value, later)) (some (.ok value, final))
  | refused {fault : SyntaxFault} {found : Option Token} {token : Token} {final : Stand}
      (blames : Blames slice found token) :
      Repeats slice (.error ⟨fault, found⟩) (some (.error (.refused fault token), final))
  | cut {found : Option Token} {outcome : Option (Except Halt α × Stand)} :
      Repeats slice (.error ⟨.tooDeep, found⟩) outcome
  | deep {answer : Except SyntaxError (α × List Token)} : Repeats slice answer none

/-- In front of some words a walk does what a parser of lists does with them. -/
def Mirrors (slice : TokenSlice) (walk : Walk α) (parser : Parser α) (rest : List Token) : Prop :=
  ∀ start, slice.Ahead start rest → Repeats slice (parser rest) (walk slice start)

namespace Mirrors

variable {walk other : Walk α} {parser another : Parser α} {rest : List Token}

theorem pure (value : α) : Mirrors slice (Pure.pure value) (Pure.pure value) rest :=
  fun _ ahead => .value ahead

theorem cut : Mirrors slice walk (Parser.failHere .tooDeep) rest := fun _ _ => .cut

theorem tooDeep : Mirrors slice Walk.tooDeep parser rest := fun _ _ => .deep

theorem failAt {fault : SyntaxFault} {found : Option Token} {token : Token}
    (blames : Blames slice found token) (fails : parser rest = .error ⟨fault, found⟩) :
    Mirrors slice (Walk.failAt token fault) parser rest := by
  intro start ahead
  rw [fails]
  exact .refused blames

theorem bind {next : α → Walk β} {next' : α → Parser β} (first : Mirrors slice walk parser rest)
    (second : ∀ value later, Mirrors slice (next value) (next' value) later) :
    Mirrors slice (walk >>= next) (parser >>= next') rest := by
  intro start ahead
  have repeats := first start ahead
  generalize run : walk slice start = outcome at repeats
  generalize read : parser rest = answer at repeats
  cases repeats with
  | @value value middle later there =>
      have goesOn : (parser >>= next') rest = next' value later := by
        simp only [Bind.bind, StateT.bind, Except.bind, read]
      rw [bind_of_ok run, goesOn]
      exact second value later middle there
  | refused blames =>
      rw [bind_of_error run, bind_eq_error.mpr (.inl read)]
      exact .refused blames
  | cut =>
      rw [bind_eq_error.mpr (.inl read)]
      exact .cut
  | deep =>
      rw [bind_of_none run]
      exact .deep

theorem map (change : α → β) (mirrors : Mirrors slice walk parser rest) :
    Mirrors slice (change <$> walk) (change <$> parser) rest := by
  rw [map_eq_pure_bind, map_eq_pure_bind]
  exact mirrors.bind fun value _ => pure (change value)

theorem ite {test : Prop} [Decidable test] (first : Mirrors slice walk parser rest)
    (second : Mirrors slice other another rest) :
    Mirrors slice (if test then walk else other) (if test then parser else another) rest := by
  split
  · exact first
  · exact second

/-- A walk that looks at the token at the cursor first. -/
theorem current {next : Token → Walk α}
    (mirrors : Mirrors slice (next (slice.present rest)) parser rest) :
    Mirrors slice (Walk.current >>= next) parser rest := by
  intro start ahead
  rw [bind_of_ok (current_run ahead)]
  exact mirrors start.looked ahead.looked

theorem looksAt {kind : TokenKind} {next : Bool → Walk α}
    (mirrors : Mirrors slice (next (upcoming rest == kind)) parser rest) :
    Mirrors slice (Walk.looksAt kind >>= next) parser rest := by
  rw [Walk.looksAt, bind_assoc]
  refine .current ?_
  rwa [pure_bind, slice.kind_present]

theorem peek {next : TokenKind → Parser α}
    (mirrors : Mirrors slice walk (next (upcoming rest)) rest) :
    Mirrors slice walk (Parser.peek >>= next) rest := mirrors

theorem failHere (fault : SyntaxFault) :
    Mirrors slice (Walk.failHere fault) (Parser.failHere fault : Parser α) rest := by
  intro start ahead
  have fails : Mirrors slice (Walk.failAt (slice.present rest) fault)
      (Parser.failHere fault : Parser α) rest := by
    cases rest with
    | nil => exact failAt .stop rfl
    | cons token rest => exact failAt (.word ahead.kind) rfl
  have looks : Mirrors slice (Walk.failHere fault) (Parser.failHere fault : Parser α) rest :=
    .current fails
  exact looks start ahead

/-- In front of a token there stands a word. -/
theorem of_kind {token : Token}
    (mirrors : token.kind ≠ .eof → Mirrors slice walk parser (token :: rest)) :
    Mirrors slice walk parser (token :: rest) := fun start ahead => mirrors ahead.kind start ahead

end Mirrors

section Tokens

variable {rest : List Token} {token : Token} {kind : TokenKind}

theorem advance_run (ahead : slice.Ahead start (token :: rest)) :
    ∃ final, advance slice start = some (.ok token, final) ∧ slice.Ahead final rest := by
  refine ⟨start.looked.looked.moved, ?_, ahead.looked.looked.moved⟩
  rw [advance, bind_of_ok (current_run ahead), Walk.looksAt, bind_assoc,
    bind_of_ok (current_run ahead.looked), pure_bind, TokenSlice.present_cons,
    if_neg (mt beq_iff_eq.mp ahead.kind)]
  rfl

/-- What is done behind a token that is taken. -/
theorem Mirrors.behind {walk : Walk α} {parser inner : Parser α}
    (mirrors : Mirrors slice walk inner rest) (same : parser (token :: rest) = inner rest) :
    Mirrors slice (advance >>= fun _ => walk) parser (token :: rest) := by
  intro start ahead
  obtain ⟨middle, run, there⟩ := advance_run ahead
  rw [bind_of_ok run, same]
  exact mirrors middle there

/-- A token that is known already is taken without a test. -/
theorem mirrors_advance (isKind : upcoming rest = kind) (visible : kind ≠ .eof) (what : Bytes) :
    Mirrors slice advance (take kind what) rest := by
  intro start ahead
  cases rest with
  | nil => exact absurd isKind.symm visible
  | cons token rest =>
      obtain ⟨final, run, there⟩ := advance_run ahead
      change token.kind = kind at isKind
      rw [run, take, if_pos (beq_iff_eq.mpr isKind)]
      exact .value there

theorem mirrors_expect (visible : kind ≠ .eof) (what : Bytes) :
    Mirrors slice (expect kind what) (take kind what) rest := by
  refine .looksAt ?_
  by_cases isKind : upcoming rest = kind
  · rw [if_pos (beq_iff_eq.mpr isKind)]
    exact mirrors_advance isKind visible what
  · rw [if_neg (mt beq_iff_eq.mp isKind)]
    have fails : take kind what rest = Parser.failHere (.expected what) rest := by
      cases rest with
      | nil => rfl
      | cons token rest =>
          change ¬ token.kind = kind at isKind
          rw [take, if_neg (mt beq_iff_eq.mp isKind)]
          rfl
    intro start ahead
    rw [fails]
    exact Mirrors.failHere _ start ahead

theorem mirrors_accept (visible : kind ≠ .eof) : Mirrors slice (accept kind) (skip kind) rest := by
  refine .looksAt ?_
  cases rest with
  | nil =>
      change Mirrors slice (if (TokenKind.eof == kind) = true then _ else _) _ _
      rw [if_neg (mt beq_iff_eq.mp visible.symm)]
      exact Mirrors.pure false
  | cons token rest =>
      change Mirrors slice (if (token.kind == kind) = true then _ else _) _ _
      split
      · rename_i isKind
        refine Mirrors.behind (Mirrors.pure true) ?_
        rw [skip, if_pos isKind]
        rfl
      · rename_i otherKind
        intro start ahead
        rw [skip, if_neg otherKind]
        exact .value ahead

theorem mirrors_identifier (what : Bytes) :
    Mirrors slice (identifier what) (Parser.identifier what) rest :=
  (mirrors_expect (by decide) what).bind fun _ _ => .pure _

theorem mirrors_literal (plain : token.kind ≠ .eof) :
    Mirrors slice (literal token)
      (fun rest => (Parser.literal token).map fun expression => (expression, rest)) rest := by
  rw [literal]
  cases found : Parser.literal token with
  | ok expression => exact fun start ahead => .value ahead
  | error error =>
      obtain ⟨fault, offending⟩ := error
      cases (literal_eq_error found).1
      exact .failAt (.word plain) rfl

end Tokens

/-! ### Expressions -/

/-- At every depth the parsers of expressions mirror those of lists within one. -/
structure MirrorsExprs (slice : TokenSlice) (depth : Nat) : Prop where
  operand : ∀ {reach : Nat} {weakest : Precedence} {rest : List Token}, 1 ≤ weakest.level →
    Mirrors slice (operand reach weakest) (operandWithin depth weakest) rest
  operators : ∀ {reach : Nat} {weakest : Precedence} {left : Expr} {rest : List Token},
    1 ≤ weakest.level →
      Mirrors slice (operators reach weakest left) (operatorsWithin depth weakest left) rest
  primary : ∀ {reach : Nat} {rest : List Token},
    Mirrors slice (primary reach) (primaryWithin depth) rest
  operator : ∀ {reach : Nat} {left : Expr} {rest : List Token}, 1 ≤ upcomingLevel rest →
    Mirrors slice (operator reach left) (operatorWithin depth left) rest
  arguments : ∀ {reach : Nat} {rest : List Token},
    Mirrors slice (arguments reach) (argumentsWithin depth) rest

namespace MirrorsExprs

variable {depth reach : Nat} {rest : List Token} {left : Expr} {weakest : Precedence}

theorem operand_succ (within : MirrorsExprs slice depth) (binds : 1 ≤ weakest.level) :
    Mirrors slice (Walk.operand reach weakest) (operandWithin (depth + 1) weakest) rest := by
  obtain _ | reach := reach
  · exact .tooDeep
  rw [Walk.operand, operandWithin]
  exact within.primary.bind fun left later => within.operators binds

theorem operators_succ (within : MirrorsExprs slice depth) (binds : 1 ≤ weakest.level) :
    Mirrors slice (Walk.operators reach weakest left) (operatorsWithin (depth + 1) weakest left)
      rest := by
  obtain _ | reach := reach
  · exact .tooDeep
  rw [Walk.operators, operatorsWithin]
  refine .current (.peek ?_)
  rw [slice.kind_present]
  split
  · rename_i reaches
    exact (within.operator (Nat.le_trans binds reaches)).bind fun larger later =>
      within.operators binds
  · exact .pure left

theorem primary_succ (within : MirrorsExprs slice depth) :
    Mirrors slice (Walk.primary reach) (primaryWithin (depth + 1)) rest := by
  obtain _ | reach := reach
  · exact .tooDeep
  rw [Walk.primary]
  refine .current ?_
  cases rest with
  | nil =>
      simp only [TokenSlice.present_nil, slice.kind_stop]
      exact .failAt .stop primaryWithin_nil
  | cons token rest =>
      refine .of_kind fun plain => ?_
      have literal : token.kind ∈ literalKinds → Mirrors slice (do
          let _ ← advance
          Walk.literal token) (primaryWithin (depth + 1)) (token :: rest) :=
        fun listed => (mirrors_literal plain).behind (primaryWithin_literal listed)
      have unary : token.kind = .minus ∨ token.kind = .bang → Mirrors slice (do
          let _ ← advance
          let operand ← Walk.operand reach .unary
          return .unary token operand) (primaryWithin (depth + 1)) (token :: rest) :=
        fun isOperator => ((within.operand (by decide)).bind fun _ _ => .pure _).behind
          (primaryWithin_unary isOperator)
      rw [TokenSlice.present_cons]
      split
      iterate 5
        rename_i isKind
        exact literal (by rw [isKind]; decide)
      · rename_i isName
        exact (Mirrors.pure _).behind (primaryWithin_variable isName)
      · rename_i isOpening
        exact ((within.operand (by decide)).bind fun _ _ =>
          (mirrors_expect (by decide) _).bind fun _ _ => .pure _).behind
            (primaryWithin_group isOpening)
      · rename_i isKind
        exact unary (.inl isKind)
      · rename_i isKind
        exact unary (.inr isKind)
      · exact .failAt (.word plain)
          (primaryWithin_other (by simp_all [literalKinds]) (by assumption)
          (by assumption) (by simp_all))

theorem assignment (within : MirrorsExprs slice depth) {operator : Token}
    (plain : operator.kind ≠ .eof) (assigns : operator.kind.isAssignment = true) :
    Mirrors slice (Walk.assignment reach left) (operatorWithin (depth + 1) left)
      (operator :: rest) := by
  obtain _ | reach := reach
  · exact .tooDeep
  rw [Walk.assignment]
  refine .current ?_
  rw [TokenSlice.present_cons, ofRightOperand_of_isAssignment assigns]
  split
  · exact ((within.operand (by decide)).bind fun _ _ => .pure _).behind
      (operatorWithin_assignment assigns)
  · exact .failAt (.word plain) (operatorWithin_noTarget assigns (by assumption))

theorem argumentList (within : MirrorsExprs slice depth) :
    Mirrors slice (Walk.argumentList reach) (Parser.argumentList depth) rest := by
  obtain _ | reach := reach
  · exact .tooDeep
  rw [Walk.argumentList]
  exact .looksAt (.peek (.ite (.pure _) within.arguments))

theorem call (within : MirrorsExprs slice depth) {opening : Token} (plain : opening.kind ≠ .eof)
    (calls : opening.kind = .leftParen) :
    Mirrors slice (Walk.call reach left) (operatorWithin (depth + 1) left) (opening :: rest) := by
  obtain _ | reach := reach
  · exact .tooDeep
  rw [Walk.call]
  refine .current ?_
  split
  · exact (within.argumentList.bind fun _ _ => (mirrors_expect (by decide) _).bind
      fun _ _ => .pure _).behind (operatorWithin_call calls)
  · exact .failAt (.word plain) (operatorWithin_noCallee calls (by assumption))

theorem operator_succ (within : MirrorsExprs slice depth) (binds : 1 ≤ upcomingLevel rest) :
    Mirrors slice (Walk.operator reach left) (operatorWithin (depth + 1) left) rest := by
  obtain _ | reach := reach
  · exact .tooDeep
  rw [Walk.operator]
  refine .current ?_
  cases rest with
  | nil => exact absurd binds (by decide)
  | cons operator rest =>
      refine .of_kind fun plain => ?_
      change 1 ≤ (Precedence.ofOperator operator.kind).level at binds
      rw [TokenSlice.present_cons]
      rcases operator_cases binds with assigns | member | calls | member
      · rw [if_pos assigns]
        exact within.assignment plain assigns
      · obtain ⟨noAssignment, connects, isRight⟩ := connectives_facts member
        rw [if_neg (by simp [noAssignment]), if_pos connects, isRight]
        exact ((within.operand (isOperandLevel_tighter (.inr member)).1).bind fun _ _ =>
          .pure _).behind (operatorWithin_logical member)
      · rw [calls, if_neg (by decide), if_neg (by decide), if_pos (by decide)]
        exact within.call plain calls
      · obtain ⟨noAssignment, noConnective, noCall, isRight⟩ := arithmetic_facts member
        rw [if_neg (by simp [noAssignment]), if_neg (by simp [noConnective]),
          if_neg (by simp [noCall]),
          isRight]
        exact ((within.operand (isOperandLevel_tighter (.inl member)).1).bind fun _ _ =>
          .pure _).behind (operatorWithin_binary member)

theorem arguments_succ (within : MirrorsExprs slice depth) :
    Mirrors slice (Walk.arguments reach) (argumentsWithin (depth + 1)) rest := by
  obtain _ | reach := reach
  · exact .tooDeep
  rw [Walk.arguments, argumentsWithin]
  exact (within.operand (by decide)).bind fun _ _ => (mirrors_accept (by decide)).bind fun _ _ =>
    .ite (within.arguments.bind fun _ _ => .pure _) (.pure _)

end MirrorsExprs

theorem mirrorsExprs (slice : TokenSlice) (depth : Nat) : MirrorsExprs slice depth := by
  induction depth with
  | zero =>
      exact
        { operand := fun _ => .cut
          operators := fun _ => .cut
          primary := .cut
          operator := fun _ => .cut
          arguments := .cut }
  | succ depth within =>
      exact
        { operand := within.operand_succ
          operators := within.operators_succ
          primary := within.primary_succ
          operator := within.operator_succ
          arguments := within.arguments_succ }

theorem mirrors_expression {reach : Nat} {rest : List Token} :
    Mirrors slice (expression reach) Parser.expression rest := by
  have inner : Mirrors slice (operand reach .assignment)
      (operandWithin (4 * rest.length + 4) .assignment) rest :=
    (mirrorsExprs slice _).operand (by decide)
  exact fun start ahead => inner start ahead

/-! ### Statements -/

section Clauses

variable {reach : Nat} {rest : List Token}

theorem mirrors_expressionUnless (kind : TokenKind) :
    Mirrors slice (expressionUnless reach kind) (Parser.expressionUnless kind) rest :=
  .looksAt (.peek (.ite (.pure _) (mirrors_expression.bind fun _ _ => .pure _)))

theorem mirrors_expressionStatement :
    Mirrors slice (expressionStatement reach) Parser.expressionStatement rest :=
  mirrors_expression.bind fun _ _ => (mirrors_expect (by decide) _).bind fun _ _ => .pure _

theorem mirrors_declaredType : Mirrors slice declaredType Parser.declaredType rest := by
  have named : ∀ rest, Mirrors slice (do return some (← identifier "type name"))
      (do return some (← Parser.identifier "type name")) rest :=
    fun rest => (mirrors_identifier "type name").bind fun _ _ => .pure _
  exact (mirrors_accept (by decide)).bind fun _ rest =>
    .ite (named rest) (.looksAt (.peek (.ite (named rest) (.pure _))))

theorem mirrors_variableDeclaration (isKeyword : upcoming rest = .varKeyword) :
    Mirrors slice (variableDeclaration reach) Parser.variableDeclaration rest := by
  have ending : ∀ (keyword : Token) (name : Identifier) (type : Option Identifier)
      (initial : Option Expr) (rest : List Token), Mirrors slice (do
        if type.isNone && initial.isNone then failHere (.typeOrValueExpected name.name)
        else
          let semicolon ← expect .semicolon "';' after variable declaration"
          return ⟨keyword.position, name, type, initial, semicolon⟩) (do
        if type.isNone && initial.isNone then Parser.failHere (.typeOrValueExpected name.name)
        let semicolon ← take .semicolon "';' after variable declaration"
        return ⟨keyword.position, name, type, initial, semicolon⟩ : Parser VarDecl) rest := by
    intro keyword name type initial rest
    split
    · exact fun start ahead => Mirrors.failHere _ start ahead
    · exact (mirrors_expect (by decide) _).bind fun _ _ => .pure _
  rw [variableDeclaration_eq]
  refine (mirrors_advance isKeyword (by decide) _).bind fun keyword _ =>
    (mirrors_identifier _).bind fun name _ => mirrors_declaredType.bind fun type _ => ?_
  rw [initialValue, declarationEnd, bind_assoc]
  refine (mirrors_accept (by decide)).bind fun found _ => ?_
  cases found with
  | true =>
      simp only [if_true, bind_assoc, pure_bind, bind_map_left]
      exact mirrors_expression.bind fun initial _ => ending keyword name type (some initial) _
  | false => exact ending keyword name type none _

theorem mirrors_condition (keyword : Bytes) :
    Mirrors slice (condition reach keyword) (Parser.condition keyword) rest :=
  (mirrors_expect (by decide) _).bind fun _ _ => mirrors_expression.bind fun _ _ =>
    (mirrors_expect (by decide) _).bind fun _ _ => .pure _

theorem mirrors_loopStart : Mirrors slice (loopStart reach) Parser.loopStart rest := by
  refine (mirrors_accept (by decide)).bind fun _ rest => .ite (.pure _) (.looksAt (.peek ?_))
  split
  · rename_i isKeyword
    exact (mirrors_variableDeclaration (eq_of_beq isKeyword)).bind fun _ _ => .pure _
  · exact mirrors_expressionStatement.bind fun _ _ => .pure _

theorem mirrors_returnStatement (isKeyword : upcoming rest = .returnKeyword) :
    Mirrors slice (returnStatement reach) Parser.returnStatement rest :=
  (mirrors_advance isKeyword (by decide) _).bind fun _ _ =>
    (mirrors_expressionUnless _).bind fun _ _ =>
      (mirrors_expect (by decide) _).bind fun _ _ => .pure _

theorem mirrors_jumpStatement (inLoop : Bool) (isWord : upcoming rest ≠ .eof) :
    Mirrors slice (jumpStatement inLoop) (Parser.jumpStatement inLoop) rest := by
  cases rest with
  | nil => exact absurd rfl isWord
  | cons keyword rest =>
      refine .current ?_
      cases inLoop with
      | false => exact .failAt (.word isWord) rfl
      | true => exact ((mirrors_expect (by decide) _).bind fun _ _ => .pure _).behind rfl

end Clauses

/-- At every depth the parsers of statements mirror those of lists within one. -/
structure MirrorsStmts (slice : TokenSlice) (depth : Nat) : Prop where
  statement : ∀ {reach : Nat} {rest : List Token} (inLoop : Bool),
    Mirrors slice (statement reach inLoop) (statementWithin depth inLoop) rest
  statements : ∀ {reach : Nat} {rest : List Token} (inLoop : Bool),
    Mirrors slice (statements reach inLoop) (statementsWithin depth inLoop) rest
  block : ∀ {reach : Nat} {rest : List Token} (inLoop : Bool),
    Mirrors slice (block reach inLoop) (blockWithin depth inLoop) rest
  conditional : ∀ {reach : Nat} {rest : List Token} (inLoop : Bool), upcoming rest = .ifKeyword →
    Mirrors slice (conditional reach inLoop) (conditionalWithin depth inLoop) rest
  whileLoop : ∀ {reach : Nat} {rest : List Token}, upcoming rest = .whileKeyword →
    Mirrors slice (whileLoop reach) (whileWithin depth) rest
  forLoop : ∀ {reach : Nat} {rest : List Token}, upcoming rest = .forKeyword →
    Mirrors slice (forLoop reach) (forWithin depth) rest

namespace MirrorsStmts

variable {depth reach : Nat} {inLoop : Bool} {rest : List Token}

theorem statement_succ (within : MirrorsStmts slice depth) :
    Mirrors slice (Walk.statement reach inLoop) (statementWithin (depth + 1) inLoop) rest := by
  obtain _ | reach := reach
  · exact .tooDeep
  rw [Walk.statement, statementWithin]
  refine .current (.peek ?_)
  rw [slice.kind_present]
  cases isKind : upcoming rest
  case varKeyword => exact (mirrors_variableDeclaration isKind).bind fun _ _ => .pure _
  case ifKeyword => exact within.conditional inLoop isKind
  case whileKeyword => exact within.whileLoop isKind
  case forKeyword => exact within.forLoop isKind
  case returnKeyword => exact mirrors_returnStatement isKind
  case breakKeyword => exact mirrors_jumpStatement inLoop (by simp [isKind])
  case continueKeyword => exact mirrors_jumpStatement inLoop (by simp [isKind])
  case leftBrace => exact (within.block inLoop).bind fun parts _ => .pure _
  case funcKeyword => exact .failHere _
  all_goals exact mirrors_expressionStatement.bind fun _ _ => .pure _

theorem statements_succ (within : MirrorsStmts slice depth) :
    Mirrors slice (Walk.statements reach inLoop) (statementsWithin (depth + 1) inLoop) rest := by
  obtain _ | reach := reach
  · exact .tooDeep
  have more : ∀ rest, Mirrors slice (do
      let statement ← Walk.statement reach inLoop
      let others ← Walk.statements reach inLoop
      return statement :: others) (do
      let statement ← statementWithin depth inLoop
      let others ← statementsWithin depth inLoop
      return statement :: others) rest := fun _ => (within.statement inLoop).bind fun _ _ =>
    (within.statements inLoop).bind fun _ _ => .pure _
  rw [Walk.statements, statementsWithin]
  refine .looksAt (.peek ?_)
  by_cases closes : (upcoming rest == .rightBrace) = true
  · rw [if_pos closes, if_pos (by simp [closes])]
    exact .pure _
  · rw [if_neg closes]
    refine .looksAt ?_
    by_cases ends : (upcoming rest == .eof) = true
    · rw [if_pos ends, if_pos (by simp [ends])]
      exact .pure _
    · rw [if_neg ends, if_neg (by simp [closes, ends])]
      exact more rest

theorem block_succ (within : MirrorsStmts slice depth) :
    Mirrors slice (Walk.block reach inLoop) (blockWithin (depth + 1) inLoop) rest := by
  obtain _ | reach := reach
  · exact .tooDeep
  rw [Walk.block, blockWithin]
  exact (mirrors_expect (by decide) _).bind fun _ _ => (within.statements inLoop).bind fun _ _ =>
    (mirrors_expect (by decide) _).bind fun _ _ => .pure _

theorem conditional_succ (within : MirrorsStmts slice depth)
    (isKeyword : upcoming rest = .ifKeyword) :
    Mirrors slice (Walk.conditional reach inLoop) (conditionalWithin (depth + 1) inLoop) rest := by
  obtain _ | reach := reach
  · exact .tooDeep
  rw [Walk.conditional, conditionalWithin]
  refine (mirrors_advance isKeyword (by decide) _).bind fun _ _ => (mirrors_condition _).bind
    fun _ _ => (within.block inLoop).bind fun parts _ => ?_
  obtain ⟨opening, consequent, closing⟩ := parts
  refine (mirrors_accept (by decide)).bind fun _ _ => .ite (.looksAt (.peek ?_)) (.pure _)
  split
  · rename_i isIf
    exact (within.conditional inLoop (eq_of_beq isIf)).bind fun _ _ => .pure _
  · exact (within.block inLoop).bind fun parts _ => .pure _

theorem whileLoop_succ (within : MirrorsStmts slice depth)
    (isKeyword : upcoming rest = .whileKeyword) :
    Mirrors slice (Walk.whileLoop reach) (whileWithin (depth + 1)) rest := by
  obtain _ | reach := reach
  · exact .tooDeep
  rw [Walk.whileLoop, whileWithin]
  exact (mirrors_advance isKeyword (by decide) _).bind fun _ _ => (mirrors_condition _).bind
    fun _ _ => (within.block true).bind fun parts _ => .pure _

theorem forLoop_succ (within : MirrorsStmts slice depth) (isKeyword : upcoming rest = .forKeyword) :
    Mirrors slice (Walk.forLoop reach) (forWithin (depth + 1)) rest := by
  obtain _ | reach := reach
  · exact .tooDeep
  rw [Walk.forLoop, forWithin]
  exact (mirrors_advance isKeyword (by decide) _).bind fun _ _ =>
    (mirrors_expect (by decide) _).bind fun _ _ => mirrors_loopStart.bind fun _ _ =>
      (mirrors_expressionUnless _).bind fun _ _ => (mirrors_expect (by decide) _).bind fun _ _ =>
        (mirrors_expressionUnless _).bind fun _ _ => (mirrors_expect (by decide) _).bind fun _ _ =>
          (within.block true).bind fun parts _ => .pure _

end MirrorsStmts

theorem mirrorsStmts (slice : TokenSlice) (depth : Nat) : MirrorsStmts slice depth := by
  induction depth with
  | zero =>
      exact
        { statement := fun _ => .cut
          statements := fun _ => .cut
          block := fun _ => .cut
          conditional := fun _ _ => .cut
          whileLoop := fun _ => .cut
          forLoop := fun _ => .cut }
  | succ depth within =>
      exact
        { statement := fun _ => within.statement_succ
          statements := fun _ => within.statements_succ
          block := fun _ => within.block_succ
          conditional := fun _ => within.conditional_succ
          whileLoop := within.whileLoop_succ
          forLoop := within.forLoop_succ }

/-! ### Items -/

section Items

variable {reach : Nat} {rest : List Token}

theorem mirrors_statement : Mirrors slice (statement reach false) Parser.statement rest := by
  have inner : Mirrors slice (statement reach false) (statementWithin (4 * rest.length + 4) false)
      rest := (mirrorsStmts slice _).statement false
  exact fun start ahead => inner start ahead

theorem mirrors_block : Mirrors slice (block reach false) Parser.block rest := by
  have inner : Mirrors slice (block reach false) (blockWithin (4 * rest.length + 4) false) rest :=
    (mirrorsStmts slice _).block false
  exact fun start ahead => inner start ahead

theorem mirrors_param : Mirrors slice param Parser.param rest :=
  (mirrors_identifier _).bind fun _ _ => (mirrors_accept (by decide)).bind fun _ _ =>
    (mirrors_identifier _).bind fun _ _ => .pure _

theorem mirrors_someParams (count : Nat) :
    Mirrors slice (someParams reach) (paramsWithin count) rest := by
  induction count generalizing reach rest with
  | zero => exact .cut
  | succ count ih =>
      obtain _ | reach := reach
      · exact .tooDeep
      rw [someParams, paramsWithin]
      exact mirrors_param.bind fun _ _ => (mirrors_accept (by decide)).bind fun _ _ =>
        .ite (ih.bind fun _ _ => .pure _) (.pure _)

theorem mirrors_params : Mirrors slice (params reach) Parser.params rest := by
  refine .looksAt (.peek (.ite (.pure _) ?_))
  exact fun start ahead => mirrors_someParams (rest.length + 1) start ahead

theorem mirrors_resultType : Mirrors slice resultType Parser.resultType rest :=
  .looksAt (.peek (.ite ((mirrors_identifier _).map some) (.pure _)))

theorem mirrors_functionDeclaration (isKeyword : upcoming rest = .funcKeyword) :
    Mirrors slice (functionDeclaration reach) Parser.functionDeclaration rest := by
  rw [functionDeclaration_eq]
  refine (mirrors_advance isKeyword (by decide) _).bind fun _ _ => (mirrors_identifier _).bind
    fun _ _ => (mirrors_expect (by decide) _).bind fun _ _ => mirrors_params.bind fun _ _ =>
      (mirrors_expect (by decide) _).bind fun _ _ => mirrors_resultType.bind fun _ rest =>
        .looksAt (.peek ?_)
  by_cases opens : (upcoming rest == .leftBrace) = true
  · rw [if_pos opens, if_neg (by simp [bne, opens])]
    exact mirrors_block.bind fun parts _ => .pure _
  · rw [if_neg opens, if_pos (by simp [bne, opens])]
    exact fun start ahead => Mirrors.failHere _ start ahead

theorem mirrors_item : Mirrors slice (item reach) (Parser.item (upcoming rest)) rest := by
  refine .looksAt ?_
  rw [Parser.item]
  split
  · rename_i isKeyword
    exact (mirrors_functionDeclaration (eq_of_beq isKeyword)).map _
  · exact mirrors_statement.map _

theorem mirrors_itemsWithin (count : Nat) :
    Mirrors slice (items reach) (itemsWithin count) rest := by
  induction count generalizing reach rest with
  | zero => exact .cut
  | succ count ih =>
      obtain _ | reach := reach
      · exact .tooDeep
      rw [items, itemsWithin_succ]
      exact .looksAt
        (.peek (.ite (.pure _) (mirrors_item.bind fun _ _ => ih.bind fun _ _ => .pure _)))

theorem mirrors_items : Mirrors slice (items reach) Parser.items rest :=
  fun start ahead => mirrors_itemsWithin (rest.length + 1) start ahead

end Items

end Walk

/-! ### Any tokens -/

namespace TokenSlice

theorem words_ofTokens (tokens : List Token) :
    (ofTokens tokens).words = Program.content tokens := by
  rw [ofTokens]
  split
  · rfl
  · have none : [endBehind tokens].takeWhile (fun token => token.kind != .eof) = [] := rfl
    rw [words, Program.content, Program.content, List.takeWhile_append, none, List.append_nil]
    split
    · rename_i whole
      exact ((List.takeWhile_prefix _).eq_of_length whole).symm
    · rfl

theorem position_stop_ofTokens (tokens : List Token) :
    (ofTokens tokens).stop.position = Program.ending tokens := by
  have found := (ofTokens tokens).find?_stop
  generalize (ofTokens tokens).stop = stop at found
  rw [Program.ending]
  rw [ofTokens] at found
  split at found
  · rw [found]
  · rw [List.find?_append] at found
    cases earlier : tokens.find? fun token => token.kind == .eof with
    | some token =>
        rw [earlier, Option.some_or] at found
        cases found
        rfl
    | none =>
        rw [earlier, Option.none_or] at found
        cases found
        rw [endBehind]
        cases tokens.getLast? <;> rfl

end TokenSlice

namespace Walk

variable {α : Type} {slice : TokenSlice}

theorem Ends.exists_eq {start : Stand} {rest : List Token} {taken : Nat}
    {answer : Option (Except Halt α × Stand)} (ahead : slice.Ahead start rest)
    (ends : Ends slice start rest taken answer) :
    ∃ outcome final, answer = some (outcome, final) ∧ start.Leads final ∧
      final.index ≤ slice.stopIndex ∧ (∀ index, outcome ≠ .error (.outside index)) ∧
      ∀ value, outcome = .ok value → start.index + taken ≤ final.index := by
  have whole := ahead.index_add
  cases ends with
  | value leads ahead fewer =>
      have last := ahead.index_add
      exact ⟨_, _, rfl, leads, by omega, nofun, fun _ _ => by omega⟩
  | refused leads ahead =>
      have last := ahead.index_add
      exact ⟨_, _, rfl, leads, by omega, nofun, nofun⟩

theorem diagnostic_of_blames {origin : Origin} {tokens : List Token} {fault : SyntaxFault}
    {found : Option Token} {token : Token} (blames : Blames (.ofTokens tokens) found token) :
    (Halt.refused fault token).diagnostic origin =
      some (Program.diagnostic origin tokens ⟨fault, found⟩) := by
  cases blames with
  | word plain => simp [Halt.diagnostic, Program.diagnostic, plain]
  | stop =>
      simp [Halt.diagnostic, Program.diagnostic, TokenSlice.kind_stop,
        TokenSlice.position_stop_ofTokens]

/-- What the parser with a cursor and the one on the list of tokens come to. -/
theorem program_answers {depth : Nat} {origin : Origin} {tokens : List Token}
    {outcome : Except Halt Program} {final : Stand}
    (run : program origin depth (.ofTokens tokens) .first = some (outcome, final)) :
    outcome.mapError (Halt.diagnostic origin) = (Program.ofTokens origin tokens).mapError some := by
  have repeats : Repeats (.ofTokens tokens) (Parser.items (TokenSlice.ofTokens tokens).words)
      (items depth (.ofTokens tokens) .first) := mirrors_items _ (TokenSlice.ahead_first _)
  rw [TokenSlice.words_ofTokens] at repeats
  rw [program] at run
  rw [Program.ofTokens]
  generalize read : Parser.items (Program.content tokens) = answer at repeats
  generalize early : items depth (.ofTokens tokens) .first = ending at repeats
  cases repeats with
  | @value contents middle later ahead =>
      obtain ⟨-, rfl⟩ := (items_eq_ok_iff (Program.plain_content tokens)).mp read
      rw [bind_of_ok early, bind_of_ok (current_run ahead), TokenSlice.present_nil,
        TokenSlice.position_stop_ofTokens] at run
      cases run
      rfl
  | refused blames =>
      rw [bind_of_error early] at run
      cases run
      simp [Except.mapError, diagnostic_of_blames blames]
  | cut => exact absurd rfl ((settles_items _).uncut _ read)
  | deep =>
      rw [bind_of_none early] at run
      cases run

/-- The parsers of declarations, statements and expressions. -/
inductive Part where
  | function
  | param
  | declaration
  | statement (inLoop : Bool)
  | block (inLoop : Bool)
  | conditional (inLoop : Bool)
  | whileLoop
  | forLoop
  | return_
  | jump (inLoop : Bool)
  | expressionStatement
  | condition (keyword : Bytes)
  | expression
  | operand (weakest : Precedence)
  | primary
  | operator (left : Expr)
  | assignment (left : Expr)
  | call (left : Expr)
  | identifier (what : Bytes)

namespace Part

/-- What a parser gives. -/
def Result : Part → Type
  | .function => FunctionDecl
  | .param => Param
  | .declaration => VarDecl
  | .block _ => Token × List Stmt × Token
  | .statement _ | .conditional _ | .whileLoop | .forLoop | .return_ | .jump _ => Stmt
  | .expressionStatement => ExprStmt
  | .identifier _ => Identifier
  | .condition _ | .expression | .operand _ | .primary | .operator _ | .assignment _ | .call _ =>
      Expr

/-- What a parser does within a depth. -/
def walk (depth : Nat) : (part : Part) → Walk part.Result
  | .function => functionDeclaration depth
  | .param => Walk.param
  | .declaration => variableDeclaration depth
  | .statement inLoop => Walk.statement depth inLoop
  | .block inLoop => Walk.block depth inLoop
  | .conditional inLoop => Walk.conditional depth inLoop
  | .whileLoop => Walk.whileLoop depth
  | .forLoop => Walk.forLoop depth
  | .return_ => returnStatement depth
  | .jump inLoop => jumpStatement inLoop
  | .expressionStatement => Walk.expressionStatement depth
  | .condition keyword => Walk.condition depth keyword
  | .expression => Walk.expression depth
  | .operand weakest => Walk.operand depth weakest
  | .primary => Walk.primary depth
  | .operator left => Walk.operator depth left
  | .assignment left => Walk.assignment depth left
  | .call left => Walk.call depth left
  | .identifier what => Walk.identifier what

theorem deeper (part : Part) (depth : Nat) : Extends (part.walk depth) (part.walk (depth + 1)) := by
  have exprs := deeperExprs depth
  have stmts := deeperStmts depth
  cases part with
  | function => exact deeper_functionDeclaration depth
  | param => exact .refl _
  | declaration => exact deeper_variableDeclaration depth
  | statement inLoop => exact stmts.statement inLoop
  | block inLoop => exact stmts.block inLoop
  | conditional inLoop => exact stmts.conditional inLoop
  | whileLoop => exact stmts.whileLoop
  | forLoop => exact stmts.forLoop
  | return_ => exact deeper_returnStatement depth
  | jump inLoop => exact .refl _
  | expressionStatement => exact deeper_expressionStatement depth
  | condition keyword => exact deeper_condition depth keyword
  | expression => exact deeper_expression depth
  | operand weakest => exact exprs.operand weakest
  | primary => exact exprs.primary
  | operator left => exact exprs.operator left
  | assignment left => exact exprs.assignment left
  | call left => exact exprs.call left
  | identifier what => exact .refl _

theorem contained (part : Part) {depth : Nat} {rest : List Token}
    (enough : 8 * rest.length + 6 ≤ depth) : Contained slice (part.walk depth) 1 rest := by
  have exprs := containedExprs slice depth
  have stmts := containedStmts slice depth
  cases part with
  | function => exact contained_functionDeclaration (by omega)
  | param => exact contained_param
  | declaration => exact contained_variableDeclaration (by omega)
  | statement inLoop => exact stmts.statement inLoop (by omega)
  | block inLoop => exact stmts.block inLoop (by omega)
  | conditional inLoop => exact stmts.conditional inLoop (by omega)
  | whileLoop => exact stmts.whileLoop (by omega)
  | forLoop => exact stmts.forLoop (by omega)
  | return_ => exact contained_returnStatement (by omega)
  | jump inLoop => exact contained_jumpStatement inLoop
  | expressionStatement => exact contained_expressionStatement (by omega)
  | condition keyword => exact contained_condition (by omega) keyword
  | expression => exact contained_expression (by omega)
  | operand weakest => exact exprs.operand weakest (by omega)
  | primary => exact exprs.primary (by omega)
  | operator left => exact exprs.operator left (by omega)
  | assignment left => exact exprs.assignment left (by omega)
  | call left => exact exprs.call left (by omega)
  | identifier what => exact contained_identifier what

end Part

/-- At all depths from one on a walk ends in the same way. -/
def EndsWith (walk : Nat → Walk α) (slice : TokenSlice) (start : Stand) (outcome : Except Halt α)
    (final : Stand) : Prop :=
  ∃ bound, ∀ depth, bound ≤ depth → walk depth slice start = some (outcome, final)

theorem EndsWith.of_run {walk : Nat → Walk α} {start final : Stand} {outcome : Except Halt α}
    {bound : Nat} (deeper : ∀ depth, Extends (walk depth) (walk (depth + 1)))
    (run : walk bound slice start = some (outcome, final)) :
    EndsWith walk slice start outcome final := by
  refine ⟨bound, fun depth larger => ?_⟩
  induction larger with
  | refl => exact run
  | step _ ih => exact deeper _ slice start _ ih

/-- From every stand up to the end of the input a walk ends: the accesses lie on the way from the
one index to the other one, which is not behind the end of the input, and a value is given only
behind another token. -/
def Advances (slice : TokenSlice) (walk : Nat → Walk α) : Prop :=
  ∀ start, start.index ≤ slice.stopIndex → ∃ outcome final,
    EndsWith walk slice start outcome final ∧ start.Leads final ∧ final.index ≤ slice.stopIndex ∧
      (∀ index, outcome ≠ .error (.outside index)) ∧
      ∀ value, outcome = .ok value → start.index < final.index

theorem Part.advances (part : Part) (slice : TokenSlice) :
    Advances slice fun depth => part.walk depth := by
  intro start inside
  obtain ⟨rest, ahead⟩ := TokenSlice.exists_ahead inside
  obtain ⟨outcome, final, run, facts⟩ :=
    (part.contained (Nat.le_refl _) start ahead).exists_eq ahead
  exact ⟨outcome, final, .of_run part.deeper run, facts⟩

/-- On any tokens, parsing with a cursor ends with the program or the diagnostic of the tokens.  The
cursor is always at a token and not behind the first one that ends the input; it never turns back;
and each parser of a part that gives a value has moved it on. -/
theorem program_inside (origin : Origin) (tokens : List Token) :
    (∃ outcome final, EndsWith (program origin) (.ofTokens tokens) .first outcome final ∧
      outcome.mapError (Halt.diagnostic origin) = (Program.ofTokens origin tokens).mapError some ∧
      (final.index :: final.reads).Pairwise (· ≥ ·) ∧
      ∀ index ∈ final.index :: final.reads, index ≤ (TokenSlice.ofTokens tokens).stopIndex ∧
        ∃ token, (TokenSlice.ofTokens tokens).tokens[index]? = some token) ∧
    ∀ part : Part, Advances (.ofTokens tokens) fun depth => part.walk depth := by
  refine ⟨?_, fun part => part.advances _⟩
  have ahead := (TokenSlice.ofTokens tokens).ahead_first
  obtain ⟨outcome, final, run, leads, inside, -, -⟩ :=
    (contained_program (Nat.le_refl _) origin _ ahead).exists_eq ahead
  obtain ⟨reads, isReads, ordered⟩ := leads
  rw [Stand.first, List.append_nil] at isReads
  subst isReads
  have way : (final.index :: final.reads).Pairwise (· ≥ ·) :=
    ordered.sublist (List.sublist_append_left _ [Stand.first.index])
  refine ⟨outcome, final, .of_run (deeper_program origin) run, program_answers run, way,
    fun index member => ?_⟩
  have reached : index ≤ (TokenSlice.ofTokens tokens).stopIndex := by
    rcases List.mem_cons.mp member with rfl | earlier
    · exact inside
    · exact Nat.le_trans (List.rel_of_pairwise_cons way earlier) inside
  obtain ⟨rest, there⟩ : ∃ rest, (TokenSlice.ofTokens tokens).Ahead ⟨index, []⟩ rest :=
    TokenSlice.exists_ahead reached
  exact ⟨reached, _, there.getElem?⟩

end Walk

end ScriptCompiler
