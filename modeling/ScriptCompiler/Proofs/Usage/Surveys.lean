import ScriptCompiler.Proofs.Lowering.Inversion
import ScriptCompiler.Proofs.Usage.Tables

/-!
# What lowering does to the scopes

Lowering a part of a program opens just the scopes of the part, adds just what the part declares,
and uses just what the names in the part refer to.
-/

namespace ScriptCompiler.Lowering

open IR Build ScopeTable

variable {state last : State} {context : Nat} {sight outer : Sight} {own : List Binding}

/-! ### Steps that leave the scopes alone -/

section Tables

@[simp] theorem table_emit (instr : Instr) : (state.emit instr).table = state.table := rfl

@[simp] theorem table_define (instr : Instr) : (state.define instr).table = state.table := rfl

@[simp] theorem table_load (slot : Place) : (state.load slot).table = state.table := table_define _

@[simp] theorem table_enter (name : BlockName) : (state.enter name).table = state.table := rfl

@[simp] theorem table_addBlock (label : Bytes) : (state.addBlock label).table = state.table := rfl

@[simp] theorem table_jump (target : BlockName) : (state.jump target).table = state.table := rfl

@[simp] theorem table_branch (condition : Value) (ifTrue ifFalse : BlockName) :
    (state.branch condition ifTrue ifFalse).table = state.table := rfl

@[simp] theorem table_addLiteral (literal : Literal) :
    (state.addLiteral literal).table = state.table := by
  cases literal <;> rfl

@[simp] theorem table_addZero (type : BasicType) : (state.addZero type).table = state.table := by
  cases type <;> rfl

@[simp] theorem table_invoke (name : Bytes) (result : BasicType) (arguments : List Value) :
    (state.invoke name result arguments).table = state.table := by
  unfold State.invoke
  split <;> rfl

@[simp] theorem table_beginLogical (operator : Token) (first : Value) :
    (state.beginLogical operator first).table = state.table := by
  simp only [State.beginLogical, table_enter]
  split <;> simp only [table_branch, table_addBlock, table_emit, table_define]

@[simp] theorem table_opened : state.opened.table = state.table := by
  unfold State.opened
  split <;> rfl

@[simp] theorem table_jumpIfOpen (target : BlockName) :
    (state.jumpIfOpen target).table = state.table := by
  unfold State.jumpIfOpen
  split <;> rfl

@[simp] theorem table_header (advance : Option Expr) :
    (state.header advance).table = state.table := by
  cases advance <;> simp [State.header, State.addPost]

end Tables

/-- A state in whose context the given declarations are in sight. -/
structure State.Stands (state : State) (context : Nat) (sight : Sight) : Prop where
  /-- The table is tidy. -/
  tidy : state.table.Tidy
  /-- The declarations are in sight. -/
  shows : state.table.Shows context sight

/-- What a part of a program has done to the scopes. -/
abbrev State.Survey (state last : State) (context : Nat) (adds : List Binding)
    (opened : List (List Binding)) (mentions : List Mention) : Prop :=
  state.table.Survey last.table context adds opened mentions

theorem State.survey_congr {first final : State} {adds : List Binding}
    {opened : List (List Binding)}
    {mentions : List Mention} (survey : state.Survey last context adds opened mentions)
    (starts : first.table = state.table) (ends : final.table = last.table) :
    first.Survey final context adds opened mentions := by
  rw [State.Survey, starts, ends]
  exact survey

namespace State.Stands

variable {after : State} {adds later : List Binding} {opened inner : List (List Binding)}
  {mentions others : List Mention}

theorem congr (stands : state.Stands context sight) (tables : after.table = state.table) :
    after.Stands context sight := ⟨tables ▸ stands.tidy, tables ▸ stands.shows⟩

theorem inside (stands : state.Stands context sight) : context < state.table.records.length :=
  stands.shows.lt

/-- Behind a part of a program its declarations are in sight. -/
theorem behind (stands : state.Stands context (own :: outer))
    (survey : state.Survey last context adds opened mentions) :
    last.Stands context ((own ++ adds) :: outer) :=
  ⟨survey.tidy, survey.shows stands.tidy.ordered stands.shows⟩

/-- Behind a part without declarations the same ones are in sight. -/
theorem still (stands : state.Stands context sight)
    (survey : state.Survey last context [] opened mentions) : last.Stands context sight := by
  cases sight with
  | nil => cases stands.shows
  | cons own outer => exact List.append_nil own ▸ stands.behind survey

theorem openScope (stands : state.Stands context sight) (kind : ScopeKind) (label : Bytes) :
    (state.openScope context kind label).Stands state.nextContext ([] :: sight) :=
  ⟨stands.tidy.child stands.inside, stands.shows.child kind label⟩

theorem nothing (stands : state.Stands context sight) (tables : last.table = state.table) :
    state.Survey last context [] [] [] := by
  rw [State.Survey, tables]
  exact .nothing stands.tidy

/-- Two parts of a program, of which the first one declares nothing. -/
theorem trans (stands : state.Stands context sight)
    (first : state.Survey last context [] opened mentions)
    (second : last.Survey after context later inner others) :
    state.Survey after context later (opened ++ inner) (mentions ++ others) :=
  Survey.trans stands.inside first second

/-- The name of a variable is resolved. -/
theorem use (stands : state.Stands context sight) {identifier : Identifier} {found : Symbol}
    (finds : state.table.find? context identifier.name = some found) :
    state.Survey (state.use found identifier.name) context [] [] [⟨sight, identifier⟩] := by
  refine Survey.markUsed stands.tidy finds fun binding _ => ?_
  have target : sight.find? identifier.name = some found.binding := by
    rw [← stands.shows.find? stands.tidy.ordered, finds]
    rfl
  simp [Mention.target, target]

/-- The name of a function is resolved. -/
theorem useCallee (stands : state.Stands context sight) {name : Bytes} {found : Symbol}
    {signature : Signature} (finds : state.table.find? context name = some found)
    (typed : (found.type >>= Ty.signature?) = some signature) :
    state.Survey (state.use found name) context [] [] [] := by
  refine Survey.markUsed stands.tidy finds fun binding kind => ?_
  obtain ⟨place, record, there, within, -⟩ := mem_of_find? stands.tidy.ordered finds
  have isFunction : found.kind = .function := by
    by_contra other
    rw [(stands.tidy.records place record there).plain found within other] at typed
    cases typed
  have differ : found.binding ≠ binding := by
    rintro rfl
    exact kind isFunction
  simp [differ]

end State.Stands

/-- Lowering a part of a program, from any state in which the declarations are in sight, does this
to the scopes. -/
def Surveys {α : Type} (context : Nat) (sight : Sight) (part : Build α) (adds : List Binding)
    (opened : List (List Binding)) (mentions : List Mention) : Prop :=
  ∀ (state last : State) (value : α), state.Stands context sight → part state = .ok (value, last) →
    state.Survey last context adds opened mentions

namespace Surveys

variable {α β : Type} {part : Build α} {next : α → Build β} {adds later : List Binding}
  {opened inner : List (List Binding)} {mentions others : List Mention}

/-- What leaves the scopes alone. -/
theorem quiet
    (tables : ∀ state last value, part state = .ok (value, last) → last.table = state.table) :
    Surveys context sight part [] [] [] :=
  fun state last value stands run => stands.nothing (tables state last value run)

theorem refuse {position : Position} {fault : LoweringFault} :
    Surveys context sight (refuse context position fault : Build α) adds opened mentions :=
  fun _ _ _ _ run => absurd run refuse_ok

theorem bind (first : Surveys context sight part [] opened mentions)
    (second : ∀ value, Surveys context sight (next value) later inner others) :
    Surveys context sight (part >>= next) later (opened ++ inner) (mentions ++ others) := by
  intro state last value stands run
  obtain ⟨found, middle, firstRun, secondRun⟩ := bind_ok.mp run
  have before := first state middle found stands firstRun
  exact stands.trans before (second found middle last value (stands.still before) secondRun)

/-- Behind declarations, what follows has them in sight. -/
theorem andThen (first : Surveys context (own :: outer) part adds opened mentions)
    (second : ∀ value, Surveys context ((own ++ adds) :: outer) (next value) later inner others) :
    Surveys context (own :: outer) (part >>= next) (adds ++ later) (opened ++ inner)
      (mentions ++ others) := by
  intro state last value stands run
  obtain ⟨found, middle, firstRun, secondRun⟩ := bind_ok.mp run
  have before := first state middle found stands firstRun
  exact Survey.trans stands.inside before
    (second found middle last value (stands.behind before) secondRun)

/-- What follows may declare nothing more. -/
theorem declaring (first : Surveys context (own :: outer) part adds opened mentions)
    (second : ∀ value, Surveys context ((own ++ adds) :: outer) (next value) [] inner others) :
    Surveys context (own :: outer) (part >>= next) adds (opened ++ inner) (mentions ++ others) :=
  List.append_nil adds ▸ first.andThen second

/-- What follows may leave the scopes alone. -/
theorem bindQuiet (first : Surveys context sight part adds opened mentions)
    (tables : ∀ found state last value, next found state = .ok (value, last) →
      last.table = state.table) : Surveys context sight (part >>= next) adds opened mentions := by
  intro state last value stands run
  obtain ⟨found, middle, firstRun, secondRun⟩ := bind_ok.mp run
  exact State.survey_congr (first state middle found stands firstRun) rfl
    (tables found middle last value secondRun)

theorem inScope {kind : ScopeKind} {label : Bytes} {body : Context → Build Unit}
    (surveys : ∀ scope, Surveys scope ([] :: sight) (body scope) adds opened mentions) :
    Surveys context sight (inScope context kind label body) [] (adds :: opened) mentions := by
  intro state last value stands run
  exact Survey.scope (surveys _ _ _ _ (stands.openScope kind label) (inScope_ok.mp run).2)

end Surveys

/-! ### Expressions -/

theorem see_append (first second : List Identifier) :
    Sight.see sight (first ++ second) = Sight.see sight first ++ Sight.see sight second :=
  List.map_append

theorem table_of_applyBinary {operator : TokenKind} {lexeme : Bytes} {position : Position}
    {left right value : Value}
    (run : applyBinary context operator lexeme position left right state = .ok (value, last)) :
    last.table = state.table := by
  obtain ⟨-, _, -, _, -, -, rfl⟩ := applyBinary_ok run
  rfl

mutual

/-- Lowering an expression resolves the names in it. -/
theorem lowerExpr_surveys (expression : Expr) :
    Surveys context sight (lowerExpr context expression) [] []
    (Sight.see sight expression.mentioned) := by
  intro state last value stands run
  match expression with
  | .literal _ literal =>
      rw [lowerExpr, lowerLiteral_ok] at run
      obtain ⟨rfl, rfl⟩ := Prod.mk.inj run
      exact stands.nothing (table_addLiteral literal)
  | .variable identifier =>
      obtain ⟨found, slot, finds, -, -, -, rfl⟩ := lowerExpr_variable_ok run
      exact stands.use finds
  | .group _ inner _ =>
      rw [lowerExpr] at run
      exact lowerExpr_surveys inner _ _ _ stands run
  | .binary left operator right =>
      obtain ⟨first, middle, second, after, leftRun, rightRun, applied⟩ := lowerExpr_binary_ok run
      have before := lowerExpr_surveys left _ _ _ stands leftRun
      have behind := lowerExpr_surveys right _ _ _ (stands.still before) rightRun
      rw [State.Survey, table_of_applyBinary applied, Expr.mentioned, see_append]
      exact stands.trans before behind
  | .logical left operator right =>
      obtain ⟨first, middle, leftRun, -, logical⟩ := lowerExpr_logical_ok run
      obtain ⟨slot, second, after, -, rightRun, -, ending, rfl, -, rfl⟩ := lowerLogical_ok logical
      have before := lowerExpr_surveys left _ _ _ stands leftRun
      have between := (stands.still before).congr (table_beginLogical operator first)
      have behind := lowerExpr_surveys right _ _ _ between rightRun
      rw [State.Survey, table_beginLogical] at behind
      rw [State.Survey, table_load, table_enter, table_jump, table_emit, Expr.mentioned, see_append]
      exact stands.trans before behind
  | .unary operator operand =>
      obtain ⟨read, middle, operandRun, applied⟩ := lowerExpr_unary_ok run
      have only := lowerExpr_surveys operand _ _ _ stands operandRun
      obtain ⟨_, -, _, -, -, rfl⟩ := applyUnary_ok applied
      exact only
  | .assignment target operator assigned =>
      obtain ⟨found, slot, value, middle, finds, -, -, assignedRun, stored⟩ :=
        lowerExpr_assignment_ok run
      have before := stands.use finds
      have behind := lowerExpr_surveys assigned _ _ _ (stands.still before) assignedRun
      have tables : last.table = middle.table := by
        rcases stored with ⟨-, -, -, rfl⟩ | ⟨arithmetic, after, -, applied, -, rfl⟩
        · rfl
        · have same : after.table = (middle.load slot).table := table_of_applyBinary applied
          exact same
      rw [State.Survey, tables]
      exact stands.trans before behind
  | .call callee arguments _ =>
      rcases lowerExpr_call_ok run with
        ⟨found, signature, values, middle, finds, typed, count, argumentsRun, -, rfl⟩ |
          ⟨argument, printed, middle, format, -, -, rfl, argumentRun, -, -, rfl⟩
      · have before := stands.useCallee finds typed
        have behind :=
          lowerArguments_surveys arguments count _ _ _ (stands.still before) argumentsRun
        rw [State.Survey, table_invoke]
        exact stands.trans before behind
      · have only := lowerExpr_surveys argument _ _ _ stands argumentRun
        rw [Expr.mentioned, Expr.allMentioned, Expr.allMentioned, List.append_nil]
        exact only
termination_by sizeOf expression

theorem lowerArguments_surveys (arguments : List Expr) {name : Bytes} {number : Nat}
    {types : List BasicType} (count : arguments.length = types.length) :
    Surveys context sight (lowerArguments context name number types arguments) [] []
      (Sight.see sight (Expr.allMentioned arguments)) := by
  intro state last values stands run
  match arguments, types with
  | argument :: arguments, wanted :: types =>
      obtain ⟨value, middle, rest, valueRun, -, -, restRun, rfl⟩ := lowerArguments_cons_ok run
      have before := lowerExpr_surveys argument _ _ _ stands valueRun
      have behind :=
        lowerArguments_surveys arguments (Nat.succ_inj.mp count) _ _ _ (stands.still before) restRun
      rw [Expr.allMentioned, see_append]
      exact stands.trans before behind
  | [], [] =>
      rw [lowerArguments] at run
      · obtain ⟨-, rfl⟩ := Prod.mk.inj (pure_ok.mp run)
        exact stands.nothing rfl
      · nofun
termination_by sizeOf arguments

end

/-! ### Statements -/

section Statements

theorem quiet_openBlock : Surveys context sight openBlock [] [] [] :=
  .quiet fun _ _ _ run => by
    obtain ⟨-, rfl⟩ := Prod.mk.inj (openBlock_ok.mp run)
    exact table_opened

theorem quiet_jump (target : BlockName) : Surveys context sight (jump target) [] [] [] :=
  .quiet fun _ _ _ run => by
    obtain ⟨-, rfl⟩ := Prod.mk.inj (jump_ok.mp run)
    exact table_jump target

theorem lowerCondition_surveys (owner : Bytes) (expression : Expr) :
    Surveys context sight (lowerCondition context owner expression) [] []
      (Sight.see sight expression.mentioned) :=
  fun _ _ _ stands run => lowerExpr_surveys expression _ _ _ stands (lowerCondition_ok run).1

/-- Lowering a declaration adds it behind its initial value. -/
theorem lowerVariable_surveys (declaration : VarDecl) :
    Surveys context sight (lowerVariable context declaration) [declaration.binding] []
      (Sight.see sight (Expr.optionMentioned declaration.initial)) := by
  intro state last _ stands run
  obtain ⟨value, middle, symbol, table, begins, declares, rfl⟩ := lowerVariable_ok run
  have before : state.Survey middle context [] []
      (Sight.see sight (Expr.optionMentioned declaration.initial)) := by
    cases begins with
    | given initial valueRun _ =>
        rw [initial]
        exact lowerExpr_surveys _ _ _ _ stands valueRun
    | zero initial _ _ _ _ =>
        rw [initial]
        exact stands.nothing (table_addZero _)
  have declared : middle.Survey (middle.withTable table) context [declaration.binding] [] [] :=
    Survey.declare (stands.still before).tidy declares rfl fun _ => rfl
  have both := stands.trans before declared
  rw [List.append_nil (Sight.see _ _)] at both
  exact State.survey_congr both rfl rfl

theorem lowerStart_surveys (start : Option LoopStart) :
    Surveys context sight (start.forM (lowerStart context)) (LoopStart.adds start) []
      (Sight.see sight (LoopStart.mentioned start)) := by
  match start with
  | none => exact .quiet fun _ _ _ run => congrArg State.table (Prod.mk.inj (pure_ok.mp run)).2
  | some (.variable declaration) => exact lowerVariable_surveys declaration
  | some (.expression statement) =>
      exact (lowerExpr_surveys statement.expression).bindQuiet fun _ _ _ _ run =>
        congrArg State.table (Prod.mk.inj (pure_ok.mp run)).2

theorem lowerReturn_surveys (first : Position) (value : Option Expr) :
    Surveys context sight (lowerReturn context first value) [] []
      (Sight.see sight (Expr.optionMentioned value)) := by
  intro state last _ stands run
  rcases lowerReturn_ok run with
    ⟨rfl, -, rfl⟩ | ⟨expression, _, middle, rfl, valueRun, -, -, -, rfl⟩
  · exact stands.nothing rfl
  · exact State.survey_congr (lowerExpr_surveys expression _ _ _ stands valueRun) rfl rfl

variable {part other : Build Unit} {adds : List Binding} {opened inner : List (List Binding)}
  {mentions others : List Mention}

theorem lowerWhen_surveys (surveys : Surveys context sight part [] opened mentions)
    (condition : Value) :
    Surveys context sight (lowerWhen condition part) [] opened mentions := by
  intro state last _ stands run
  obtain ⟨_, _, made, middle, -, -, rfl, partRun, rfl⟩ := lowerWhen_ok run
  exact State.survey_congr (surveys _ _ _ (stands.congr (by simp)) partRun) (by simp) (by simp)

theorem lowerChoice_surveys (surveys : Surveys context sight part [] opened mentions)
    (surveys' : Surveys context sight other adds inner others) (condition : Value) :
    Surveys context sight (lowerChoice condition part other) adds (opened ++ inner)
      (mentions ++ others) := by
  intro state last _ stands run
  obtain ⟨_, _, _, made, middle, after, -, -, -, rfl, partRun, otherRun, rfl⟩ := lowerChoice_ok run
  have first := surveys _ _ _ (stands.congr (by simp)) partRun
  have before : state.Survey middle context [] opened mentions :=
    State.survey_congr first (by simp) rfl
  have second := surveys' _ _ _ ((stands.still before).congr (by simp)) otherRun
  exact stands.trans before (State.survey_congr second (by simp) (by simp))

/-- The condition of a loop, its body and what leads to its next round. -/
theorem lowerRounds_surveys (condition advance : Option Expr) {body : LoopTargets → Build Unit}
    (surveys : ∀ targets, Surveys context sight (body targets) [] opened mentions) :
    Surveys context sight (lowerRounds context condition advance body) [] opened
      (Sight.see sight (Expr.optionMentioned condition) ++
        (mentions ++ Sight.see sight (Expr.optionMentioned advance))) := by
  intro state last _ stands run
  obtain ⟨tested, middle, after, testRun, bodyRun, advanceRun, rfl⟩ := lowerRounds_ok run
  have testing :
    state.Survey tested context [] [] (Sight.see sight (Expr.optionMentioned condition)) := by
    rcases lowerTest_ok testRun with ⟨rfl, rfl⟩ | ⟨expression, value, read, rfl, valueRun, -, rfl⟩
    · exact stands.nothing (by simp)
    · exact State.survey_congr
        (lowerExpr_surveys expression _ _ _ (stands.congr (by simp)) valueRun)
        (by simp) (by simp)
  have ready := stands.still testing
  have running : tested.Survey middle context [] opened mentions :=
    State.survey_congr (surveys _ _ _ _ (ready.congr (by simp)) bodyRun) (by simp) rfl
  have ended := ready.still running
  have advancing :
    middle.Survey after context [] [] (Sight.see sight (Expr.optionMentioned advance)) := by
    rcases lowerAdvance_ok advanceRun with
      ⟨rfl, rfl⟩ | ⟨expression, value, read, rfl, valueRun, rfl⟩
    · exact ended.nothing (by simp)
    · exact State.survey_congr (lowerExpr_surveys expression _ _ _ (ended.congr (by simp)) valueRun)
        (by simp) (by simp)
  have whole := stands.trans testing (ready.trans running advancing)
  rw [List.append_nil] at whole
  exact State.survey_congr whole rfl (by simp)

end Statements

mutual

/-- Lowering a statement adds what it declares, opens its scopes and resolves the names in it. -/
theorem lowerStmt_surveys (statement : Stmt) {context : Nat} {own : List Binding} {outer : Sight}
    {loop : Option LoopTargets} : Surveys context (own :: outer) (lowerStmt context loop statement)
      statement.adds statement.scopes (statement.mentions outer own) := by
  match statement with
  | .expression content =>
      rw [lowerStmt]
      exact quiet_openBlock.bind fun _ => (lowerExpr_surveys content.expression).bindQuiet
        fun _ _ _ _ run => congrArg State.table (Prod.mk.inj (pure_ok.mp run)).2
  | .variable declaration =>
      rw [lowerStmt]
      exact quiet_openBlock.bind fun _ => lowerVariable_surveys declaration
  | .block _ body _ =>
      rw [lowerStmt]
      exact quiet_openBlock.bind fun _ => .inScope fun _ => lowerStmts_surveys body
  | .conditional _ condition _ consequent _ none =>
      rw [lowerStmt]
      exact quiet_openBlock.bind fun _ => (lowerCondition_surveys _ condition).bind
        (lowerWhen_surveys (.inScope fun _ => lowerStmts_surveys consequent))
  | .conditional _ condition _ consequent _ (some alternative) =>
      rw [lowerStmt_choice]
      refine quiet_openBlock.bind fun _ => (lowerCondition_surveys _ condition).bind
        (lowerChoice_surveys (.inScope fun _ => lowerStmts_surveys consequent) ?_)
      unfold lowerAlternative
      split
      · rename_i body _
        exact .inScope fun _ => lowerStmts_surveys body
      · exact lowerStmt_surveys alternative
  | .loop _ start condition advance _ body _ =>
      rw [lowerStmt]
      exact quiet_openBlock.bind fun _ => .inScope fun _ =>
        (lowerStart_surveys start).declaring fun _ =>
        lowerRounds_surveys condition advance fun _ => .inScope fun _ => lowerStmts_surveys body
  | .return_ first value _ =>
      rw [lowerStmt]
      exact quiet_openBlock.bind fun _ => lowerReturn_surveys first value
  | .break_ keyword =>
      unfold lowerStmt
      cases loop with
      | none => exact quiet_openBlock.bind fun _ => .refuse
      | some targets => exact quiet_openBlock.bind fun _ => quiet_jump _
  | .continue_ keyword =>
      unfold lowerStmt
      cases loop with
      | none => exact quiet_openBlock.bind fun _ => .refuse
      | some targets => exact quiet_openBlock.bind fun _ => quiet_jump _
  | .function first =>
      rw [lowerStmt]
      exact quiet_openBlock.bind fun _ => .refuse
termination_by sizeOf statement

theorem lowerStmts_surveys (statements : List Stmt) {context : Nat} {own : List Binding}
    {outer : Sight}
    {loop : Option LoopTargets} :
    Surveys context (own :: outer) (lowerStmts context loop statements)
      (statements.flatMap Stmt.adds) (Stmt.allScopes statements)
      (Stmt.allMentions outer own statements) := by
  match statements with
  | [] => exact .quiet fun _ _ _ run => congrArg State.table (Prod.mk.inj (pure_ok.mp run)).2
  | statement :: rest =>
      rw [lowerStmts]
      exact (lowerStmt_surveys statement).andThen fun _ => lowerStmts_surveys rest
termination_by sizeOf statements

end

end ScriptCompiler.Lowering
