import ScriptCompiler.Proofs.Compilation.Units
import ScriptCompiler.Proofs.Statics.Programs
import ScriptCompiler.Proofs.Syntax.Regular

/-!
# What lowering answers

Lowering looks up what it has kept for later: the scope of a context, the slot of a variable.  It is
lost when nothing is there.  Here every part of lowering answers: from states whose scopes are in
order it goes on to such a state or finds a name or a type that breaks the rules.  So the program of
a text is lowered or refused for its names and types, and for nothing else (`build_answers`).
-/

namespace ScriptCompiler.Lowering

open IR Build

variable {α β : Type} {bound : Nat} {context : Context}

/-- The categories of what a program gets wrong in its names and types. -/
def violations : List Category := [.duplicateName, .noSuchVariable, .typeError]

theorem typeError_mem : .typeError ∈ violations := by decide

/-- A diagnostic about a name or a type, which stays whatever input stands behind. -/
structure Violates (diagnostic : Diagnostic) : Prop where
  /-- It is about a name or a type. -/
  category_mem : diagnostic.category ∈ violations
  /-- More input does not help. -/
  definite : diagnostic.incomplete = false

/-- The scopes are in order, and the contexts below a bound are there. -/
def State.InOrder (bound : Nat) (state : State) : Prop :=
  state.WellScoped ∧ bound ≤ state.nextContext

/-- From the states before, a part of lowering goes on to a state after or finds a violation. -/
def Answers (before : State → Prop) (part : Build α) (after : α → State → Prop) : Prop :=
  ∀ state, before state →
    (∀ diagnostic, part state = .error diagnostic → Violates diagnostic) ∧
      ∀ value last, part state = .ok (value, last) → after value last

theorem State.InOrder.mono {state : State} {larger : Nat} (inOrder : state.InOrder larger)
    (le : bound ≤ larger) : state.InOrder bound :=
  ⟨inOrder.1, le.trans inOrder.2⟩

theorem State.InOrder.congr {state last : State} (inOrder : state.InOrder bound)
    (tables : last.table = state.table) (slots : last.slots = state.slots) : last.InOrder bound :=
  ⟨inOrder.1.congr tables slots, by rw [State.nextContext, tables]; exact inOrder.2⟩

theorem State.InOrder.use {state : State} (inOrder : state.InOrder bound) (symbol : Symbol)
    (name : Bytes) : (state.use symbol name).InOrder bound := by
  refine ⟨inOrder.1.use symbol, ?_⟩
  simpa [State.nextContext, State.use, State.withTable, ScopeTable.markUsed, ScopeTable.update]
    using inOrder.2

namespace Answers

section Logic

variable {before : State → Prop} {part : Build α} {middle : α → State → Prop}
  {after : β → State → Prop}

theorem bind {next : α → Build β} (first : Answers before part middle)
    (second : ∀ value, Answers (middle value) (next value) after) :
    Answers before (part >>= next) after := by
  intro state starts
  obtain ⟨errors, goes⟩ := first state starts
  refine ⟨fun diagnostic run => ?_, fun value last run => ?_⟩
  · cases ran : part state with
    | error found =>
        simp only [Bind.bind, StateT.bind, Except.bind, ran] at run
        cases run
        exact errors _ ran
    | ok outcome =>
        simp only [Bind.bind, StateT.bind, Except.bind, ran] at run
        exact (second outcome.1 outcome.2 (goes _ _ ran)).1 diagnostic run
  · obtain ⟨found, between, firstRun, secondRun⟩ := bind_ok.mp run
    exact (second found between (goes _ _ firstRun)).2 value last secondRun

theorem weaken {after : α → State → Prop} (answers : Answers before part middle)
    (weaker : ∀ value state, middle value state → after value state) : Answers before part after :=
  fun state starts => ⟨(answers state starts).1, fun value last run =>
    weaker value last ((answers state starts).2 value last run)⟩

theorem strengthen {earlier : State → Prop} (answers : Answers before part middle)
    (stronger : ∀ state, earlier state → before state) : Answers earlier part middle :=
  fun state starts => answers state (stronger state starts)

/-- A fact that holds of the states before may be used. -/
theorem of_fact {fact : Prop} (answers : fact → Answers before part middle) :
    Answers (fun state => fact ∧ before state) part middle :=
  fun state starts => answers starts.1 state starts.2

theorem pure {value : α} (shows : ∀ state, before state → middle value state) :
    Answers before (pure value) middle := by
  refine fun state starts => ⟨fun diagnostic run => (nomatch run), fun found last run => ?_⟩
  obtain ⟨rfl, rfl⟩ := Prod.mk.inj (pure_ok.mp run)
  exact shows _ starts

theorem map {change : α → β} (answers : Answers before part fun value => after (change value)) :
    Answers before (change <$> part) after := by
  rw [map_eq_pure_bind]
  exact answers.bind fun value => .pure fun _ => id

theorem get : Answers before MonadState.get fun _ => before := by
  refine fun state starts => ⟨fun diagnostic run => (nomatch run), fun found last run => ?_⟩
  cases run
  exact starts

/-- A step for each member of a list. -/
theorem mapM {step : α → Build β} {good : β → Prop} {items : List α}
    (each : ∀ item ∈ items, Answers before (step item) fun value state => good value ∧
      before state) :
    Answers before (items.mapM step) fun values state => (∀ value ∈ values, good value) ∧
      before state := by
  induction items with
  | nil =>
      rw [List.mapM_nil]
      exact .pure fun state starts => ⟨by simp, starts⟩
  | cons item rest ih =>
      rw [List.mapM_cons]
      obtain ⟨first, others⟩ := List.forall_mem_cons.mp each
      refine first.bind fun value => .of_fact fun isGood => (ih others).bind fun values =>
        .of_fact fun areGood => .pure fun state starts => ⟨?_, starts⟩
      exact List.forall_mem_cons.mpr ⟨isGood, areGood⟩

theorem each {step : α → Build β} {items : List α}
    (all : ∀ item ∈ items, Answers before (step item) fun _ => before) :
    Answers before (items.mapM step) fun _ => before :=
  (@mapM _ _ _ step (fun _ => True) _ fun item member => (all item member).weaken fun _ _ starts =>
    ⟨trivial, starts⟩).weaken fun _ _ starts => starts.2

/-- A step for a member that may be missing. -/
theorem optional {step : α → Build β} {option : Option α}
    (each : ∀ item ∈ option, Answers before (step item) fun _ => before) :
    Answers before (option.mapM step) fun value state => value.isSome = option.isSome ∧
    before state := by
  cases option with
  | none => exact .pure fun state starts => ⟨rfl, starts⟩
  | some item => exact .map ((each item rfl).weaken fun _ _ starts => ⟨rfl, starts⟩)

end Logic

section Steps

variable {after : α → State → Prop}

/-- What always succeeds and touches no scope. -/
theorem of_run {part : Build α}
    (runs : ∀ state, ∃ value last, part state = .ok (value, last) ∧ last.table = state.table ∧
      last.slots = state.slots) :
    Answers (State.InOrder bound) part fun _ => State.InOrder bound := by
  intro state inOrder
  obtain ⟨value, last, ran, tables, slots⟩ := runs state
  refine ⟨fun diagnostic run => (nomatch ran.symm.trans run), fun found other run => ?_⟩
  obtain ⟨-, rfl⟩ := Prod.mk.inj (Except.ok.inj (ran.symm.trans run))
  exact inOrder.congr tables slots

theorem of_quiet {part : Build α} {yields : α → Prop} (quiet : Quiet part yields) :
    Answers (State.InOrder bound) part fun _ => State.InOrder bound := by
  refine .of_run fun state => ?_
  obtain ⟨value, last, ran, -, tables, slots, -⟩ := quiet state
  exact ⟨value, last, ran, tables, slots⟩

/-- The scopes are at hand in a context that is there. -/
theorem tableAt_eq {state : State} (inOrder : state.InOrder bound) (inside : context < bound) :
    tableAt context state = .ok (state.table, state) :=
  tableAt_ok.mpr ⟨inside.trans_le inOrder.2, rfl⟩

theorem refuse {position : Position} {fault : LoweringFault} (inside : context < bound)
    (usual : fault.category ∈ violations) :
    Answers (State.InOrder bound) (refuse context position fault) after := by
  refine fun state inOrder => ⟨fun diagnostic run => ?_, fun value last run => absurd run refuse_ok⟩
  simp only [Lowering.refuse, Bind.bind, StateT.bind, Except.bind, tableAt_eq inOrder inside] at run
  cases run
  exact ⟨usual, rfl⟩

theorem guardFrom {before : State → Prop} {test : Prop} [Decidable test] {position : Position}
    {fault : LoweringFault} {skipped : PUnit → Build α} {part : Build α}
    (ordered : ∀ state, before state → state.InOrder bound) (inside : context < bound)
    (usual : fault.category ∈ violations) (answers : Answers before part after) :
    Answers before (if test then Lowering.refuse context position fault >>= skipped else part)
      after := by
  have refuses : Answers before (Lowering.refuse context position fault : Build PUnit)
      fun _ _ => False :=
    (Answers.refuse inside usual).strengthen ordered
  split
  · exact refuses.bind fun _ _ impossible => impossible.elim
  · exact answers

theorem guard {test : Prop} [Decidable test] {position : Position} {fault : LoweringFault}
    {skipped : PUnit → Build α} {part : Build α} (inside : context < bound)
    (usual : fault.category ∈ violations) (answers : Answers (State.InOrder bound) part after) :
    Answers (State.InOrder bound)
      (if test then Lowering.refuse context position fault >>= skipped else part) after :=
  guardFrom (fun _ => id) inside usual answers

/-- A step on the scopes, which finds a violation or goes on. -/
theorem onTable {step : ScopeTable → Except Diagnostic (α × ScopeTable)} (inside : context < bound)
    (errors : ∀ table diagnostic, step table = .error diagnostic → Violates diagnostic)
    (goes : ∀ state : State, state.InOrder bound → ∀ value table,
      step state.table = .ok (value, table) → after value (state.withTable table)) :
    Answers (State.InOrder bound) (onTable context step) after := by
  refine fun state inOrder => ⟨fun diagnostic run => ?_, fun value last run => ?_⟩
  · simp only [Lowering.onTable, Bind.bind, StateT.bind, Except.bind, tableAt_eq inOrder inside]
      at run
    cases stepped : step state.table with
    | error found =>
        simp only [stepped] at run
        cases run
        exact errors _ _ stepped
    | ok outcome =>
        simp only [stepped] at run
        cases run
  · obtain ⟨-, table, stepped, rfl⟩ := onTable_ok.mp run
    exact goes state inOrder value table stepped

theorem openScope {kind : ScopeKind} {label : Bytes} (inside : context < bound) :
    Answers (State.InOrder bound) (openScope context kind label) fun new state =>
      bound ≤ new ∧ state.InOrder (new + 1) := by
  refine .onTable inside (fun _ _ run => nomatch run) fun state inOrder new table opened => ?_
  obtain ⟨rfl, rfl⟩ := Prod.mk.inj (Except.ok.inj opened)
  refine ⟨inOrder.2, inOrder.1.openScope (inside.trans_le inOrder.2), ?_⟩
  simp [State.nextContext, State.withTable]

theorem inScope {kind : ScopeKind} {label : Bytes} {body : Context → Build Unit}
    (inside : context < bound)
    (inner : ∀ new, bound ≤ new → Answers (State.InOrder (new + 1)) (body new) fun _ =>
      State.InOrder (new + 1)) :
    Answers (State.InOrder bound) (inScope context kind label body) fun _ => State.InOrder bound :=
  (Answers.openScope inside).bind fun new => .of_fact fun le => (inner new le).weaken
    fun _ _ inOrder => inOrder.mono (le.trans (Nat.le_succ new))

theorem slotOf {symbol : Symbol} :
    Answers (fun state => (state.slot? symbol).isSome ∧ state.InOrder bound)
      (slotOf symbol) fun _ =>
      State.InOrder bound := by
  rintro state ⟨held, inOrder⟩
  obtain ⟨slot, held⟩ := Option.isSome_iff_exists.mp held
  have found : Lowering.slotOf symbol state = .ok (slot, state) := slotOf_ok.mpr ⟨slot, held, rfl⟩
  refine ⟨fun diagnostic run => (nomatch found.symm.trans run), fun value last run => ?_⟩
  obtain ⟨rfl, rfl⟩ := Prod.mk.inj (Except.ok.inj (found.symm.trans run))
  exact inOrder

end Steps

end Answers

open Answers

section Names

variable {table : ScopeTable} {diagnostic : Diagnostic}

theorem resolve_violates {name : Bytes} {use : Position}
    (run : table.resolve context name use = .error diagnostic) : Violates diagnostic := by
  unfold ScopeTable.resolve at run
  split at run <;> cases run
  exact ⟨by simp [violations], rfl⟩

theorem declare_violates {symbol : Symbol}
    (run : table.declare context symbol = .error diagnostic) :
    Violates diagnostic := by
  unfold ScopeTable.declare at run
  split at run <;> cases run
  exact ⟨by simp [violations], rfl⟩

/-- **Every variable that is found has a slot.** -/
theorem lookupVariable_answers {identifier : Identifier} (inside : context < bound) :
    Answers (State.InOrder bound) (lookupVariable context identifier) fun symbol state =>
      (state.slot? symbol).isSome ∧ state.InOrder bound := by
  intro state inOrder
  have errors : ∀ diagnostic, lookupVariable context identifier state = .error diagnostic →
      Violates diagnostic := by
    have resolves : Answers (State.InOrder bound) (onTable context fun table =>
        table.resolve context identifier.name identifier.first) fun _ => State.InOrder bound := by
      refine .onTable inside (fun _ _ => resolve_violates) fun state inOrder symbol table run => ?_
      obtain ⟨found, -, same⟩ := resolve_ok.mp run
      obtain ⟨-, rfl⟩ := Prod.mk.inj same
      exact inOrder.use found identifier.name
    have answers : Answers (State.InOrder bound) (lookupVariable context identifier) fun _ =>
        State.InOrder bound :=
      resolves.bind fun symbol => .guard inside typeError_mem (.pure fun _ => id)
    exact (answers state inOrder).1
  refine ⟨errors, fun symbol last run => ?_⟩
  obtain ⟨found, finds, kind, rfl, rfl⟩ := lookupVariable_ok run
  obtain ⟨place, held, -⟩ := inOrder.1.variable_of_find? finds kind
  have held : (state.use found identifier.name).slot? { found with used := true } = some place :=
    held
  exact ⟨by rw [held]; rfl, inOrder.use found identifier.name⟩

theorem resolveCallee_answers {callee : Identifier} (inside : context < bound) :
    Answers (State.InOrder bound) (resolveCallee context callee) fun _ => State.InOrder bound := by
  intro state inOrder
  refine ⟨fun diagnostic run => ?_, fun target last run => ?_⟩
  · simp only [resolveCallee, Bind.bind, StateT.bind, Except.bind, tableAt_eq inOrder inside] at run
    cases resolved : state.table.resolve context callee.name callee.first with
    | error found =>
        simp only [resolved] at run
        split at run <;> cases run
        exact resolve_violates resolved
    | ok outcome =>
        obtain ⟨found, -, rfl⟩ := resolve_ok.mp resolved
        simp only [resolved] at run
        have refuses : Answers (State.InOrder bound) (refuse context callee.first
            (.notFunction found.name) : Build Target) fun _ => State.InOrder bound :=
          .refuse inside typeError_mem
        split at run
        · exact (refuses _ (inOrder.use found callee.name)).1 diagnostic run
        · cases run
  · rcases resolveCallee_ok run with ⟨found, _, -, -, -, rfl⟩ | ⟨-, -, -, rfl⟩
    · exact inOrder.use found callee.name
    · exact inOrder

end Names

section Types

variable {identifier : Identifier}

theorem resultType_answers (inside : context < bound) :
    Answers (State.InOrder bound) (resultType context identifier) fun _ => State.InOrder bound := by
  unfold resultType
  split
  · exact .pure fun _ => id
  · exact .refuse inside typeError_mem

theorem valueType_answers (inside : context < bound) :
    Answers (State.InOrder bound) (valueType context identifier) fun _ => State.InOrder bound :=
  (resultType_answers inside).bind fun _ => .guard inside typeError_mem (.pure fun _ => id)

end Types

section Expressions

variable {place : Position}

theorem applyBinary_answers {operator : TokenKind} {lexeme : Bytes} {position : Position}
    {left right : Value} (inside : context < bound) :
    Answers (State.InOrder bound) (applyBinary context operator lexeme position left right) fun _ =>
      State.InOrder bound := by
  refine .guard inside typeError_mem ?_
  cases binaryOpcode? left.type operator with
  | none => exact .refuse inside typeError_mem
  | some opcode => exact .of_quiet (Quiet.define _ fun dest => .binary opcode dest left right)

theorem applyUnary_answers {operator : Token} {operand : Value} (inside : context < bound) :
    Answers (State.InOrder bound) (applyUnary context operator operand) fun _ =>
      State.InOrder bound := by
  unfold applyUnary
  cases unaryOpcode? operand.type operator.kind with
  | none => exact .refuse inside typeError_mem
  | some opcode => exact .of_quiet (Quiet.define _ fun dest => .unary opcode dest operand)

theorem requireTruth_answers {operator : Token} {value : Value} (inside : context < bound) :
    Answers (State.InOrder bound) (requireTruth context operator place value) fun _ =>
      State.InOrder bound := by
  unfold requireTruth
  split
  · exact .refuse inside typeError_mem
  · exact .pure fun _ => id

theorem storeVariable_answers {symbol : Symbol} {slot : Place} {value : Value}
    (inside : context < bound) :
    Answers (State.InOrder bound) (storeVariable context symbol slot place value) fun _ =>
      State.InOrder bound :=
  .guard inside typeError_mem ((of_quiet (.emit _)).bind fun _ => .pure fun _ => id)

theorem emitPrint_answers {value : Value} (inside : context < bound) :
    Answers (State.InOrder bound) (emitPrint context place value) fun _ => State.InOrder bound := by
  unfold emitPrint
  split
  · exact .refuse inside typeError_mem
  · have declares : Answers (State.InOrder bound) (modify fun state =>
        { state with externals := declareExternal state.externals formatter } : Build Unit)
        fun _ => State.InOrder bound :=
      .of_run fun state => ⟨(), state.addFormatter, rfl, rfl, rfl⟩
    exact declares.bind fun _ => (of_quiet (.newString _)).bind fun _ =>
      (of_quiet (.emit _)).bind fun _ => .of_quiet .noValue

theorem emitCall_answers {name : Bytes} {signature : Signature} {values : List Value} :
    Answers (State.InOrder bound) (emitCall name signature values) fun _ =>
      State.InOrder bound := by
  unfold emitCall
  split
  · exact (of_quiet (.emit _)).bind fun _ => .of_quiet .noValue
  · exact .of_quiet (.define _ fun dest => .call (some dest) ⟨.defined, name⟩ values)

theorem lowerLiteral_answers {value : Literal} :
    Answers (State.InOrder bound) (lowerLiteral value) fun _ => State.InOrder bound := by
  cases value with
  | int value => exact .of_quiet (.newConstant _)
  | float value => exact .of_quiet (.newConstant _)
  | bool value => exact .of_quiet (.newConstant _)
  | string content => exact .of_quiet (.newString _)

theorem lowerLogical_answers {operator : Token} {first : Value} {right : Build Value}
    (inside : context < bound)
    (answers : Answers (State.InOrder bound) right fun _ => State.InOrder bound) :
    Answers (State.InOrder bound) (lowerLogical context operator place first right) fun _ =>
      State.InOrder bound := by
  have branches : ∀ (conjunction : Bool) (rest done : BlockName),
      Answers (State.InOrder bound) (branchLogical conjunction first rest done) fun _ =>
        State.InOrder bound := by
    intro conjunction rest done
    cases conjunction <;> exact .of_quiet (.branch _ _ _)
  exact (of_quiet (.newSlot _ _)).bind fun _ => (of_quiet (.emit _)).bind fun _ =>
    (of_quiet (.newBlock _)).bind fun _ => (of_quiet (.newBlock _)).bind fun _ =>
    (branches _ _ _).bind fun _ => (of_quiet (.enter _)).bind fun _ => answers.bind fun _ =>
    (requireTruth_answers inside).bind fun _ => (of_quiet (.emit _)).bind fun _ =>
    (of_quiet (.jump _)).bind fun _ => (of_quiet (.enter _)).bind fun _ => .of_quiet (.loadSlot _)

theorem lowerAssignment_answers {target : Identifier} {operator : Token} {value : Expr}
    (inside : context < bound)
    (inner : Answers (State.InOrder bound) (lowerExpr context value) fun _ => State.InOrder bound) :
    Answers (State.InOrder bound) (lowerExpr context (.assignment target operator value)) fun _ =>
      State.InOrder bound := by
  rw [lowerExpr]
  refine (lookupVariable_answers inside).bind fun symbol => ?_
  -- Behind the name of the target, which has a slot.
  refine .guardFrom (fun _ starts => starts.2) inside typeError_mem
    (Answers.slotOf.bind fun slot => inner.bind fun assigned => ?_)
  cases compoundOperator? operator.kind with
  | none => exact storeVariable_answers inside
  | some arithmetic =>
      exact (of_quiet (.loadSlot _)).bind fun _ => (applyBinary_answers inside).bind fun _ =>
        storeVariable_answers inside

theorem lowerCall_answers {callee : Identifier} {arguments : List Expr} {closing : Token}
    (inside : context < bound)
    (single : ∀ argument ∈ arguments,
      Answers (State.InOrder bound) (lowerExpr context argument) fun _ => State.InOrder bound)
    (several : ∀ name types, Answers (State.InOrder bound)
      (lowerArguments context name 1 types arguments) fun _ => State.InOrder bound) :
    Answers (State.InOrder bound) (lowerExpr context (.call callee arguments closing)) fun _ =>
      State.InOrder bound := by
  unfold lowerExpr
  refine (resolveCallee_answers inside).bind fun target => ?_
  cases target with
  | declared name signature =>
      exact .guard inside typeError_mem ((several name _).bind fun _ => emitCall_answers)
  | print =>
      match arguments with
      | [] => exact .refuse inside typeError_mem
      | [argument] =>
          exact (single argument List.mem_cons_self).bind fun _ => emitPrint_answers inside
      | _ :: _ :: _ => exact .refuse inside typeError_mem

mutual

/-- Lowering an expression answers. -/
theorem lowerExpr_answers (expression : Expr) (inside : context < bound) :
    Answers (State.InOrder bound) (lowerExpr context expression) fun _ => State.InOrder bound := by
  match expression with
  | .literal _ value =>
      rw [lowerExpr]
      exact lowerLiteral_answers
  | .variable identifier =>
      rw [lowerExpr]
      exact (lookupVariable_answers inside).bind fun _ => Answers.slotOf.bind fun _ =>
        .of_quiet (.loadSlot _)
  | .group _ inner _ =>
      rw [lowerExpr]
      exact lowerExpr_answers inner inside
  | .binary left operator right =>
      rw [lowerExpr]
      exact (lowerExpr_answers left inside).bind fun _ => (lowerExpr_answers right inside).bind
        fun _ => applyBinary_answers inside
  | .logical left operator right =>
      rw [lowerExpr]
      exact (lowerExpr_answers left inside).bind fun _ =>
        (requireTruth_answers inside).bind fun _ =>
        lowerLogical_answers inside (lowerExpr_answers right inside)
  | .unary operator operand =>
      rw [lowerExpr]
      exact (lowerExpr_answers operand inside).bind fun _ => applyUnary_answers inside
  | .assignment target operator value =>
      exact lowerAssignment_answers inside (lowerExpr_answers value inside)
  | .call callee arguments _ =>
      exact lowerCall_answers inside (fun argument _ => lowerExpr_answers argument inside)
        fun _ _ => lowerArguments_answers arguments inside
termination_by sizeOf expression

/-- Lowering the arguments of a call answers. -/
theorem lowerArguments_answers (arguments : List Expr) {name : Bytes} {number : Nat}
    {types : List BasicType} (inside : context < bound) :
    Answers (State.InOrder bound) (lowerArguments context name number types arguments) fun _ =>
      State.InOrder bound := by
  match types, arguments with
  | wanted :: types, argument :: arguments =>
      rw [lowerArguments]
      exact (lowerExpr_answers argument inside).bind fun _ => .guard inside typeError_mem
        ((lowerArguments_answers arguments inside).bind fun _ => .pure fun _ => id)
  | [], arguments =>
      rw [lowerArguments]
      · exact .pure fun _ => id
      · exact nofun
  | _ :: _, [] =>
      rw [lowerArguments]
      · exact .pure fun _ => id
      · exact nofun
termination_by sizeOf arguments

end

end Expressions

section Declarations

/-- A symbol that is declared and gets a slot with a value. -/
theorem declareHeld_answers {symbol : Symbol} {type : BasicType} {initial : Build Value}
    {yields : Value → Prop} (inside : context < bound) (assignable : symbol.isAssignable = true)
    (plain : symbol.type = some (.basic type)) (quiet : Quiet initial yields) :
    Answers (State.InOrder bound) (do
      let owned ← onTable context fun table => table.declare context symbol
      let value ← initial
      holdValue owned type value) fun _ => State.InOrder bound := by
  -- Between the declaration and the slot the scopes are not in order, so the states are named.
  have holds : Answers (State.InOrder bound)
      (onTable context fun table => table.declare context symbol) fun owned state =>
        ∃ first : State, first.InOrder bound ∧ state = first.withTable state.table ∧
          first.table.declare context symbol = .ok (owned, state.table) :=
    .onTable inside (fun _ _ => declare_violates) fun state inOrder owned table declares =>
      ⟨state, inOrder, rfl, declares⟩
  refine holds.bind fun owned state ⟨first, inOrder, same, declares⟩ => ?_
  obtain ⟨value, last, ran, -, tables, slots, -⟩ := quiet state
  have run : (initial >>= fun value => holdValue owned type value) state =
      .ok ((), last.hold owned type value) :=
    bind_ok.mpr ⟨value, last, ran, holdValue_ok.mpr rfl⟩
  refine ⟨fun diagnostic failed => (nomatch run.symm.trans failed), fun _ end_ ended => ?_⟩
  obtain ⟨-, rfl⟩ := Prod.mk.inj (Except.ok.inj (run.symm.trans ended))
  have firstSlots : last.slots = first.slots := by rw [slots, same]; rfl
  obtain ⟨declared, -⟩ := @Declares.of_slot first (last.hold owned type value) context symbol owned
    ⟨last.nextId, owned.name, type⟩ (inside.trans_le inOrder.2) assignable ⟨type, plain⟩
    (declares.trans (by rw [← tables]; rfl)) (by rw [← firstSlots]; rfl)
  exact ⟨declared.wellScoped inOrder.1, inOrder.2.trans declared.nextContext_eq.ge⟩

theorem Quiet.initialValue (type : BasicType) (initial : Option Value) :
    Quiet (Lowering.initialValue type initial) fun _ => True := by
  cases initial with
  | some value => exact .pure trivial
  | none =>
      cases type with
      | string => exact (Quiet.newString []).mono fun _ _ => trivial
      | _ => exact (Quiet.newConstant _).mono fun _ _ => trivial

theorem lowerInitial_answers {name : Bytes} {declared : Option BasicType} {expression : Expr}
    (inside : context < bound) :
    Answers (State.InOrder bound) (lowerInitial context name declared expression) fun _ =>
      State.InOrder bound := by
  refine (lowerExpr_answers expression inside).bind fun value => .guard inside typeError_mem ?_
  cases declared with
  | none => exact .pure fun _ => id
  | some type => exact .guard inside typeError_mem (.pure fun _ => id)

/-- The declaration of a variable with a type or an initial value answers. -/
theorem lowerVariable_answers {declaration : VarDecl} (regular : declaration.Regular)
    (inside : context < bound) :
    Answers (State.InOrder bound) (lowerVariable context declaration) fun _ =>
      State.InOrder bound := by
  have declares : ∀ (type : BasicType) (initial : Option Value), Answers (State.InOrder bound) (do
      let symbol ← onTable context fun table => table.declare context
        { name := declaration.name.name, kind := .variable, type := some (.basic type),
          position := declaration.name.first }
      let value ← initialValue type initial
      holdValue symbol type value) fun _ => State.InOrder bound :=
    fun type initial => declareHeld_answers inside rfl rfl (.initialValue type initial)
  refine (Answers.optional fun _ _ => valueType_answers inside).bind fun declared =>
    .of_fact fun annotated => (Answers.optional fun _ _ => lowerInitial_answers inside).bind
      fun initial => .of_fact fun given => ?_
  cases chosen : declared.or (initial.map Value.type) with
  | some type => exact declares type initial
  | none =>
      obtain ⟨untyped, unset⟩ := Option.or_eq_none_iff.mp chosen
      simp_all [VarDecl.Regular]

end Declarations

section Statements

theorem lowerStart_answers {start : LoopStart} (regular : start.Regular)
    (inside : context < bound) :
    Answers (State.InOrder bound) (lowerStart context start) fun _ => State.InOrder bound := by
  cases start with
  | «variable» declaration => exact lowerVariable_answers regular inside
  | expression statement =>
      exact (lowerExpr_answers statement.expression inside).bind fun _ => .pure fun _ => id

theorem lowerCondition_answers {owner : Bytes} {expression : Expr} (inside : context < bound) :
    Answers (State.InOrder bound) (lowerCondition context owner expression) fun _ =>
      State.InOrder bound :=
  (lowerExpr_answers expression inside).bind fun _ =>
    .guard inside typeError_mem (.pure fun _ => id)

theorem lowerReturn_answers {first : Position} {value : Option Expr} (inside : context < bound) :
    Answers (State.InOrder bound) (lowerReturn context first value) fun _ =>
      State.InOrder bound := by
  cases value with
  | none =>
      exact Answers.get.bind fun _ => .guard inside typeError_mem (.of_quiet (.emit _))
  | some expression =>
      exact (lowerExpr_answers expression inside).bind fun _ => Answers.get.bind fun _ =>
        .guard inside typeError_mem (.guard inside typeError_mem (.of_quiet (.emit _)))

variable {consequent alternative : Build Unit}
  (first : Answers (State.InOrder bound) consequent fun _ => State.InOrder bound)
  (second : Answers (State.InOrder bound) alternative fun _ => State.InOrder bound)

include first in
theorem lowerWhen_answers {condition : Value} :
    Answers (State.InOrder bound) (lowerWhen condition consequent) fun _ => State.InOrder bound :=
  (of_quiet (.newBlock _)).bind fun _ => (of_quiet (.newBlock _)).bind fun _ =>
    (of_quiet (.branch _ _ _)).bind fun _ => (of_quiet (.enter _)).bind fun _ => first.bind fun _ =>
    (of_quiet (.jumpIfOpen _)).bind fun _ => .of_quiet (.enter _)

include first second in
theorem lowerChoice_answers {condition : Value} :
    Answers (State.InOrder bound) (lowerChoice condition consequent alternative) fun _ =>
      State.InOrder bound :=
  (of_quiet (.newBlock _)).bind fun _ => (of_quiet (.newBlock _)).bind fun _ =>
    (of_quiet (.newBlock _)).bind fun _ => (of_quiet (.branch _ _ _)).bind fun _ =>
    (of_quiet (.enter _)).bind fun _ => first.bind fun _ => (of_quiet (.jumpIfOpen _)).bind fun _ =>
    (of_quiet (.enter _)).bind fun _ => second.bind fun _ =>
      (of_quiet (.jumpIfOpen _)).bind fun _ =>
    .of_quiet (.enter _)

theorem lowerRounds_answers {condition advance : Option Expr} {body : LoopTargets → Build Unit}
    (inside : context < bound)
    (inner : ∀ targets, Answers (State.InOrder bound) (body targets) fun _ => State.InOrder bound) :
    Answers (State.InOrder bound) (lowerRounds context condition advance body) fun _ =>
      State.InOrder bound := by
  have tests : ∀ bodyBlock endBlock, Answers (State.InOrder bound)
      (lowerTest context bodyBlock endBlock condition) fun _ => State.InOrder bound := by
    intro bodyBlock endBlock
    cases condition with
    | none => exact .of_quiet (.jump _)
    | some test =>
        exact (lowerCondition_answers inside).bind fun _ => .of_quiet (.branch _ _ _)
  have advances : ∀ postBlock condBlock, Answers (State.InOrder bound)
      (lowerAdvance context postBlock condBlock advance) fun _ => State.InOrder bound := by
    intro postBlock condBlock
    cases advance with
    | none => exact .pure fun _ => id
    | some expression =>
        exact (of_quiet (.enter _)).bind fun _ =>
          (lowerExpr_answers expression inside).bind fun _ =>
          .of_quiet (.jump _)
  exact (of_quiet (.newBlock _)).bind fun _ => (of_quiet (.newBlock _)).bind fun _ =>
    (Answers.optional fun _ _ => of_quiet (.newBlock _)).bind fun _ => .of_fact fun _ =>
    (of_quiet (.newBlock _)).bind fun _ => (of_quiet (.jump _)).bind fun _ =>
    (of_quiet (.enter _)).bind fun _ => (tests _ _).bind fun _ =>
      (of_quiet (.enter _)).bind fun _ =>
    (inner _).bind fun _ => (of_quiet (.jumpIfOpen _)).bind fun _ => (advances _ _).bind fun _ =>
    .of_quiet (.enter _)

/-- Lowering the statements of a block answers if lowering them in a scope of their own does. -/
theorem lowerBlock_answers {body : List Stmt} {loop : Option LoopTargets} {kind : ScopeKind}
    {label : Bytes} (inside : context < bound)
    (inner : ∀ {new bound : Nat}, new < bound →
      Answers (State.InOrder bound) (lowerStmts new loop body) fun _ => State.InOrder bound) :
    Answers (State.InOrder bound)
      (inScope context kind label fun inner => lowerStmts inner loop body) fun _ =>
        State.InOrder bound :=
  .inScope inside fun new _ => inner (Nat.lt_succ_self new)

mutual

/-- **Lowering a statement answers** where its jumps have a loop to act on. -/
theorem lowerStmt_answers (statement : Stmt) {loop : Option LoopTargets} {inLoop : Bool}
    {context : Context} {bound : Nat} (regular : statement.Regular inLoop)
    (loops : inLoop = true → loop.isSome) (inside : context < bound) :
    Answers (State.InOrder bound) (lowerStmt context loop statement) fun _ =>
      State.InOrder bound := by
  match statement, regular with
  | .variable declaration, regular =>
      rw [lowerStmt]
      exact (of_quiet .openBlock).bind fun _ => lowerVariable_answers regular inside
  | .expression statement, _ =>
      rw [lowerStmt]
      exact (of_quiet .openBlock).bind fun _ => (lowerExpr_answers _ inside).bind fun _ =>
        .pure fun _ => id
  | .block _ body _, regular =>
      rw [lowerStmt]
      exact (of_quiet .openBlock).bind fun _ => lowerBlock_answers inside
        (lowerStmts_answers body regular loops)
  | .conditional _ condition _ consequent _ none, regular =>
      rw [lowerStmt]
      exact (of_quiet .openBlock).bind fun _ => (lowerCondition_answers inside).bind fun _ =>
        lowerWhen_answers
          (lowerBlock_answers inside (lowerStmts_answers consequent regular.2 loops))
  | .conditional _ condition _ consequent _ (some alternative), regular =>
      have chosen : Answers (State.InOrder bound)
          (inScope context .block "if.then" fun inner => lowerStmts inner loop consequent) fun _ =>
            State.InOrder bound :=
        lowerBlock_answers inside (lowerStmts_answers consequent regular.2.1 loops)
      unfold lowerStmt
      refine (of_quiet .openBlock).bind fun _ => (lowerCondition_answers inside).bind fun _ => ?_
      match alternative with
      | .block _ body _ =>
          exact lowerChoice_answers chosen
            (lowerBlock_answers inside (lowerStmts_answers body regular.2.2 loops))
      | .conditional .. | .expression _ | .variable _ | .loop .. | .return_ .. | .break_ _
      | .continue_ _ | .function _ =>
          exact lowerChoice_answers chosen (lowerStmt_answers _ regular.2.2 loops inside)
  | .loop _ start condition advance _ body _, regular =>
      rw [lowerStmt]
      refine (of_quiet .openBlock).bind fun _ => .inScope inside fun scope _ => ?_
      have within := Nat.lt_succ_self scope
      have starts : Answers (State.InOrder (scope + 1)) (start.forM (lowerStart scope)) fun _ =>
          State.InOrder (scope + 1) := by
        cases start with
        | none => exact .pure fun _ => id
        | some first => exact lowerStart_answers (regular.1 first rfl) within
      exact starts.bind fun _ => lowerRounds_answers within fun targets =>
        lowerBlock_answers within (lowerStmts_answers body regular.2.2.2 fun _ => rfl)
  | .return_ first value _, _ =>
      rw [lowerStmt]
      exact (of_quiet .openBlock).bind fun _ => lowerReturn_answers inside
  | .break_ keyword, regular =>
      obtain ⟨targets, rfl⟩ := Option.isSome_iff_exists.mp (loops regular)
      rw [lowerStmt]
      exact (of_quiet .openBlock).bind fun _ => .of_quiet (.jump _)
  | .continue_ keyword, regular =>
      obtain ⟨targets, rfl⟩ := Option.isSome_iff_exists.mp (loops regular)
      rw [lowerStmt]
      exact (of_quiet .openBlock).bind fun _ => .of_quiet (.jump _)
  | .function _, regular => exact regular.elim

/-- Lowering statements answers. -/
theorem lowerStmts_answers (statements : List Stmt) {loop : Option LoopTargets} {inLoop : Bool}
    {context : Context} {bound : Nat} (regular : Stmt.AllRegular inLoop statements)
    (loops : inLoop = true → loop.isSome) (inside : context < bound) :
    Answers (State.InOrder bound) (lowerStmts context loop statements) fun _ =>
      State.InOrder bound := by
  match statements, regular with
  | [], _ =>
      rw [lowerStmts]
      exact .pure fun _ => id
  | statement :: rest, regular =>
      rw [lowerStmts]
      exact (lowerStmt_answers statement regular.1 loops inside).bind fun _ =>
        lowerStmts_answers rest regular.2 loops inside

end

end Statements

section Programs

theorem spillParams_answers {params : List (Param × Place)} (inside : context < bound) :
    Answers (State.InOrder bound) (spillParams context params) fun _ => State.InOrder bound := by
  induction params with
  | nil => exact .pure fun _ => id
  | cons entry rest ih =>
      obtain ⟨param, place⟩ := entry
      have quiet : Quiet (pure (.param place) : Build Value) fun _ => True := .done _
      have one := @declareHeld_answers bound context (paramSymbol param place) place.type _ _
        inside rfl rfl quiet
      simp only [pure_bind] at one
      have parts : spillParams context ((param, place) :: rest) = (do
          let symbol ← onTable context fun table => table.declare context (paramSymbol param place)
          holdValue symbol place.type (.param place)) >>= fun _ => spillParams context rest := by
        rw [spillParams, bind_assoc]
        rfl
      rw [parts]
      exact one.bind fun _ => ih

theorem declareFunction_answers {declaration : FunctionDecl} (inside : ScopeTable.root < bound) :
    Answers (State.InOrder bound) (declareFunction declaration) fun declared state =>
      declared.declaration = declaration ∧ state.InOrder bound := by
  have params : Answers (State.InOrder bound) (declaration.params.mapM fun param : Param => do
      return (param.name.name, ← valueType ScopeTable.root param.type)) fun _ =>
        State.InOrder bound :=
    .each fun param _ => (valueType_answers inside).bind fun _ => .pure fun _ => id
  have declares : ∀ signature, Answers (State.InOrder bound)
      (onTable ScopeTable.root fun table => table.declare ScopeTable.root
        (functionSymbol declaration signature)) fun _ => State.InOrder bound := by
    refine fun signature => .onTable inside (fun _ _ => declare_violates) ?_
    intro state inOrder owned table run
    obtain ⟨declared, -⟩ := @Declares.of_signature state (state.withTable table) _ _ owned
      (inside.trans_le inOrder.2) signature rfl rfl run rfl
    exact ⟨declared.wellScoped inOrder.1, inOrder.2.trans declared.nextContext_eq.ge⟩
  refine params.bind fun params => ?_
  have rest : ∀ result : BasicType, Answers (State.InOrder bound) (do
      let _ ← onTable ScopeTable.root fun table => table.declare ScopeTable.root
        (functionSymbol declaration { params := params.map Prod.snd, result })
      return ⟨declaration, .ofSignature declaration.name.name params result⟩ : Build Declared)
      fun declared state => declared.declaration = declaration ∧ state.InOrder bound :=
    fun _ => (declares _).bind fun _ => .pure fun _ inOrder => ⟨rfl, inOrder⟩
  cases declaration.result with
  | some identifier => exact (resultType_answers inside).bind rest
  | none =>
      have nothing : Answers (State.InOrder bound) (pure .void : Build BasicType) fun _ =>
          State.InOrder bound := .pure fun _ => id
      exact nothing.bind rest

theorem beginFunction_answers {function : Function} :
    Answers (State.InOrder bound) (beginFunction function) fun _ => State.InOrder bound :=
  .of_run fun state => ⟨(), state.begin function, rfl, rfl, rfl⟩

variable {statements : List Stmt} (regular : Stmt.AllRegular false statements)
include regular

theorem lowerTopLevel_answers {name : Bytes} (inside : context < bound) :
    Answers (State.InOrder bound) (lowerTopLevel context name statements) fun _ =>
      State.InOrder bound :=
  beginFunction_answers.bind fun _ => (lowerStmts_answers statements regular nofun inside).bind
    fun _ => .of_quiet .finishFunction

theorem lowerFunction_answers {declared : Declared}
    (body : Stmt.AllRegular false declared.declaration.body) (inside : context < bound) :
    Answers (State.InOrder bound) (lowerFunction context statements declared) fun _ =>
      State.InOrder bound := by
  refine beginFunction_answers.bind fun _ =>
    (lowerStmts_answers statements regular nofun inside).bind
    fun _ => (Answers.openScope inside).bind fun scope => .of_fact fun le => ?_
  have within := Nat.lt_succ_self scope
  refine (spillParams_answers within).bind fun _ => (lowerStmts_answers _ body nofun within).bind
    fun _ => (of_quiet .finishFunction).weaken fun _ _ inOrder => ?_
  exact inOrder.mono (le.trans (Nat.le_succ scope))

omit regular in
theorem lowerItems_answers {options : EntryOptions} {stem : Bytes} {program : Program}
    (regular : program.Regular) :
    Answers (State.InOrder 1) (lowerItems options stem program) fun _ _ => True := by
  have root : ScopeTable.root < 1 := Nat.zero_lt_one
  have declares : Answers (State.InOrder 1) (program.functions.mapM declareFunction)
      fun items state => (∀ item ∈ items, Stmt.AllRegular false item.declaration.body) ∧
        state.InOrder 1 :=
    .mapM fun declaration member => (declareFunction_answers root).weaken fun declared _ starts =>
      ⟨starts.1 ▸ regular.bodies declaration member, starts.2⟩
  refine declares.bind fun items => .of_fact fun bodies => (Answers.openScope root).bind
    fun topLevel => .of_fact fun le => ?_
  have inside : topLevel < topLevel + 1 := Nat.lt_succ_self topLevel
  have outer : ScopeTable.root < topLevel + 1 := Nat.succ_pos topLevel
  have lowers : ∀ item ∈ items, Answers (State.InOrder (topLevel + 1))
      (lowerFunction ScopeTable.root [] item) fun _ => State.InOrder (topLevel + 1) :=
    fun item member => @lowerFunction_answers _ _ [] trivial item (bodies item member) outer
  dsimp only
  split
  · refine (Answers.each fun item member => ?_).bind fun _ => .pure fun _ _ => trivial
    split
    · exact lowerFunction_answers regular.statements (bodies item member) inside
    · exact lowers item member
  · split
    · exact .refuse outer List.mem_cons_self
    · exact (lowerTopLevel_answers regular.statements inside).bind fun _ =>
        (Answers.each lowers).bind fun _ => .pure fun _ _ => trivial

end Programs

/-- The functions that a built module calls are among its own. -/
theorem Translates.function?_of_callee {options : EntryOptions} {stem : Bytes} {program : Program}
    {module : Module} {signature? : Bytes → Option Signature} {start last : State}
    (translates : Translates options stem program module signature? start last)
    {function : Function}
    (member : function ∈ module.functions) {instr : Instr} (within : instr ∈ function.instrs)
    {name : Bytes} (calls : instr.callee? = some ⟨.defined, name⟩) :
    (module.function? name).isSome := by
  have typed := (translates.sound function member).typed instr within
  cases instr with
  | call dest callee arguments =>
      obtain rfl : callee = ⟨.defined, name⟩ := Option.some.inj calls
      obtain ⟨signature, known, -⟩ := typed
      obtain ⟨found, isFound, -⟩ := Option.map_eq_some_iff.mp known
      exact isFound ▸ rfl
  | _ => cases calls

/-- Lowering refuses a program for its names and types only. -/
theorem violates_of_refused {options : EntryOptions} {file : SourceFile} {program : Program}
    {diagnostic : Diagnostic} (regular : program.Regular)
    (run : build options file program = .error diagnostic) : Violates diagnostic := by
  unfold build at run
  simp only [StateT.run, Bind.bind, Except.bind] at run
  split at run
  · rename_i found failed
    cases run
    have starts := @declaring_ofFile
      { table := .ofFile file, function := .ofSignature [] [] .void,
        current := ⟨Function.entry, []⟩ } file rfl
    exact (lowerItems_answers regular _ ⟨starts.wellScoped, starts.nextContext_eq.ge⟩).1 _ failed
  · cases run

/-- **Every program that is read is lowered or refused for its names and types.**  Its tree is what
the grammar promises.  Lowering it finds a name declared twice, a name without a declaration or a
value of the wrong type, and nothing else; it is never lost, so that every variable has a slot and
every context a scope.  In the module that it makes every function that is called is there. -/
theorem build_answers {file : SourceFile} {tokens : List Token} {program : Program}
    (parsed : file.parse = .ok (tokens, program)) (options : EntryOptions) :
    program.Regular ∧
      ((∃ built, build options file program = .ok built ∧
          ∀ function ∈ built.module.functions, ∀ instr ∈ function.instrs, ∀ name,
            instr.callee? = some ⟨.defined, name⟩ → (built.module.function? name).isSome) ∨
        ∃ diagnostic, build options file program = .error diagnostic ∧
          diagnostic.category ∈ [.duplicateName, .noSuchVariable, .typeError]) := by
  have regular := SourceFile.regular_of_parse parsed
  obtain ⟨-, read⟩ := SourceFile.ofTokens_of_parse parsed
  refine ⟨regular, ?_⟩
  cases run : build options file program with
  | ok built =>
      obtain ⟨_, _, _, translates⟩ := build_translates (Program.written_of_ofTokens read) run
      exact .inl ⟨built, rfl, fun function member instr within name =>
        translates.function?_of_callee member within⟩
  | error diagnostic =>
      exact .inr ⟨diagnostic, rfl, (violates_of_refused regular run).category_mem⟩

/-- A file whose program jumps out of a loop, calls a function of its own and assigns to a variable
twice. -/
def loopingFile : SourceFile :=
  ⟨"loop.tss", "func next(x: int) int \x7b return x + 1; \x7d
    var i = 0; while (true) \x7b i = next(i); if (i > 9) \x7b break; \x7d i *= 2; \x7d"⟩

theorem build_answers_looping : ∃ tokens program, loopingFile.parse = .ok (tokens, program) ∧
    program.functions.length = 1 ∧ program.Regular ∧
      ((∃ built, build { policy := .always } loopingFile program = .ok built ∧
          ∀ function ∈ built.module.functions, ∀ instr ∈ function.instrs, ∀ name,
            instr.callee? = some ⟨.defined, name⟩ → (built.module.function? name).isSome) ∨
        ∃ diagnostic, build { policy := .always } loopingFile program = .error diagnostic ∧
          diagnostic.category ∈ [.duplicateName, .noSuchVariable, .typeError]) := by
  obtain ⟨⟨tokens, program⟩, parsed, check⟩ := exists_ok_of_any
    (show (loopingFile.parse.toOption.any fun outcome => outcome.2.functions.length == 1) = true by
      simp only [loopingFile, Bytes.ofString_eq]
      decide +kernel)
  exact ⟨tokens, program, parsed, beq_iff_eq.mp check, build_answers parsed _⟩

end ScriptCompiler.Lowering
