import ScriptCompiler.Lowering.Program

/-!
# The steps of lowering

Lowering is a computation on a state that the first violation ends.  Here its primitive steps are
functions on states, and every part of lowering that succeeds is taken apart into such steps: the
lemmas that end in `_ok` say what a successful run has done and which checks it has passed.
-/

namespace ScriptCompiler.Lowering

open IR

namespace Build

variable {α β : Type}

theorem bind_ok {first : Build α} {next : α → Build β} {state : State} {result : β × State} :
    (first >>= next) state = .ok result ↔
      ∃ value middle, first state = .ok (value, middle) ∧ next value middle = .ok result := by
  simp only [bind, StateT.bind, Except.bind]
  cases first state with
  | error diagnostic => simp
  | ok outcome => cases outcome; simp [and_assoc]

theorem pure_ok {value : α} {state : State} {result : α × State} :
    (pure value : Build α) state = .ok result ↔ result = (value, state) := by
  change Except.ok (value, state) = .ok result ↔ _
  rw [Except.ok.injEq, eq_comm]

theorem map_ok {first : Build α} {change : α → β} {state : State} {result : β × State} :
    (change <$> first) state = .ok result ↔
      ∃ value middle, first state = .ok (value, middle) ∧ result = (change value, middle) := by
  simp only [Functor.map, StateT.map, bind, Except.bind, pure, Except.pure]
  cases first state with
  | error diagnostic => simp
  | ok outcome => cases outcome; simp [and_assoc, eq_comm]

theorem get_ok {state : State} {result : State × State} :
    (get : Build State) state = .ok result ↔ result = (state, state) := by
  simp only [get, getThe, MonadStateOf.get, StateT.get, pure, Except.pure, Except.ok.injEq, eq_comm]

theorem lost_ok {what : Bytes} {state : State} {result : α × State} :
    lost what state ≠ .ok result := by
  intro run
  obtain ⟨_, _, _, thrown⟩ := bind_ok.mp run
  cases thrown

/-- A table is at hand only for its own contexts. -/
theorem tableAt_ok {context : Context} {state : State} {result : ScopeTable × State} :
    tableAt context state = .ok result ↔
      context < state.table.records.length ∧ result = (state.table, state) := by
  simp only [tableAt, bind_ok, get_ok, Prod.mk.injEq, and_assoc, exists_eq_left, exists_and_left]
  by_cases outside : state.table.records.length ≤ context
  · simp only [outside, if_true, bind_ok, lost_ok, false_and, exists_false, false_iff]
    exact fun inside => absurd outside (Nat.not_le.mpr inside.1)
  · simp only [outside, if_false, pure_ok, Nat.not_le.mp outside, true_and]

theorem refuse_ok {context : Context} {position : Position} {fault : LoweringFault} {state : State}
    {result : α × State} : refuse context position fault state ≠ .ok result := by
  intro run
  obtain ⟨_, _, _, thrown⟩ := bind_ok.mp run
  cases thrown

/-- A check that refuses when its test holds is passed only when the test fails. -/
theorem guard_ok {test : Prop} [Decidable test] {context : Context} {position : Position}
    {fault : LoweringFault} {skipped : PUnit → Build α} {next : Build α} {state : State}
    {result : α × State} :
    (if test then refuse context position fault >>= skipped else next) state = .ok result ↔
      ¬test ∧ next state = .ok result := by
  by_cases holds : test
  · rw [if_pos holds]
    refine ⟨fun run => ?_, fun passed => absurd holds passed.1⟩
    obtain ⟨_, _, refused, _⟩ := bind_ok.mp run
    exact absurd refused refuse_ok
  · simp [holds]

theorem guardLast_ok {test : Prop} [Decidable test] {context : Context} {position : Position}
    {fault : LoweringFault} {state : State} {result : PUnit × State} :
    (if test then refuse context position fault else pure PUnit.unit) state = .ok result ↔
      ¬test ∧ result = (PUnit.unit, state) := by
  by_cases holds : test
  · simp [holds, refuse_ok]
  · simp [holds, pure_ok]

theorem mapM_nil_ok {step : α → Build β} {state : State} {result : List β × State} :
    ([] : List α).mapM step state = .ok result ↔ result = ([], state) := by
  rw [List.mapM_nil, pure_ok]

theorem mapM_cons_ok {step : α → Build β} {first : α} {rest : List α} {state : State}
    {result : List β × State} :
    (first :: rest).mapM step state = .ok result ↔
      ∃ value middle values last, step first state = .ok (value, middle) ∧
        rest.mapM step middle = .ok (values, last) ∧ result = (value :: values, last) := by
  simp only [List.mapM_cons, bind_ok, pure_ok]
  constructor
  · rintro ⟨value, middle, one, values, last, others, same⟩
    exact ⟨value, middle, values, last, one, others, same⟩
  · rintro ⟨value, middle, values, last, one, others, same⟩
    exact ⟨value, middle, one, values, last, others, same⟩

end Build

namespace State

/-- The state with an instruction at the end of the current block. -/
def emit (state : State) (instr : Instr) : State :=
  { state with function := state.function.append state.current.id instr }

/-- The state with one more number of a value taken. -/
def skip (state : State) : State := { state with function := state.function.newValue.2 }

/-- The number of the next value. -/
def nextId (state : State) : Nat := state.function.nextValue

/-- The state with an instruction that defines the next value. -/
def define (state : State) (instr : Instr) : State := state.skip.emit instr

/-- The state with a new block. -/
def addBlock (state : State) (label : Bytes) : State :=
  { state with function := (state.function.newBlock label).2 }

/-- The name of the next block. -/
def blockName (state : State) (label : Bytes) : BlockName := (state.function.newBlock label).1

/-- The state with another current block. -/
def enter (state : State) (name : BlockName) : State := { state with current := name }

/-- The state with an edge out of the current block. -/
def connect (state : State) (target : BlockName) : State :=
  { state with function := state.function.addEdge state.current target }

/-- The state with a jump at the end of the current block. -/
def jump (state : State) (target : BlockName) : State := (state.emit (.jump target)).connect target

/-- The state with a branch at the end of the current block. -/
def branch (state : State) (condition : Value) (ifTrue ifFalse : BlockName) : State :=
  ((state.emit (.branch condition ifTrue ifFalse)).connect ifTrue).connect ifFalse

/-- Whether the current block takes further instructions. -/
def isOpen (state : State) : Bool := state.function.isOpen state.current.id

/-- The state with a jump at the end of the current block unless it has ended. -/
def jumpIfOpen (state : State) (target : BlockName) : State :=
  if state.isOpen then state.jump target else state

/-- The state in which the current block takes instructions, a new one if the old one has ended. -/
def opened (state : State) : State :=
  if state.isOpen then state else (state.addBlock "dead").enter (state.blockName "dead")

/-- The state with a string constant. -/
def addText (state : State) (content : Bytes) : State :=
  { state with strings := (internString state.strings content).2 }

/-- The place of a string constant. -/
def textIndex (state : State) (content : Bytes) : Nat := (internString state.strings content).1

/-- The state with the output function declared. -/
def addFormatter (state : State) : State :=
  { state with externals := declareExternal state.externals formatter }

/-- The state with another scope table. -/
def withTable (state : State) (table : ScopeTable) : State := { state with table }

/-- The state with a slot for a symbol. -/
def bindSlot (state : State) (symbol : Symbol) (slot : Place) : State :=
  { state with slots := ((symbol.context, symbol.index), slot) :: state.slots }

/-- The slot of a symbol, if there is one. -/
def slot? (state : State) (symbol : Symbol) : Option Place :=
  (state.slots.find? fun entry => entry.1 == (symbol.context, symbol.index)).map Prod.snd

/-- The state with a new slot for a symbol that holds a value. -/
def hold (state : State) (symbol : Symbol) (type : BasicType) (value : Value) : State :=
  let slot : Place := ⟨state.nextId, symbol.name, type⟩
  ((state.define (.alloca slot)).emit (.store (.slot slot) value)).bindSlot symbol slot

/-- The state inside a new scope. -/
def openScope (state : State) (context : Context) (kind : ScopeKind) (label : Bytes) : State :=
  state.withTable (state.table.child context kind label).2

/-- The next context. -/
def nextContext (state : State) : Context := state.table.records.length

end State

section Primitives

open Build

variable {state : State}

theorem emit_ok {instr : Instr} {result : Unit × State} :
    emit instr state = .ok result ↔ result = ((), state.emit instr) := by
  exact ⟨fun run => (Except.ok.inj run).symm, fun same => same ▸ rfl⟩

theorem freshId_ok {result : Nat × State} :
    freshId state = .ok result ↔ result = (state.nextId, state.skip) := by
  exact ⟨fun run => (Except.ok.inj run).symm, fun same => same ▸ rfl⟩

theorem freshTemp_ok {type : BasicType} {result : Temp × State} :
    freshTemp type state = .ok result ↔ result = (⟨state.nextId, type⟩, state.skip) := by
  simp only [freshTemp, bind_ok, freshId_ok, pure_ok, Prod.mk.injEq, exists_eq_left, and_assoc,
    exists_and_left]

theorem newConstant_ok {constant : Constant} {result : Value × State} :
    newConstant constant state = .ok result ↔ result = (.constant constant, state.skip) := by
  simp only [newConstant, bind_ok, freshId_ok, pure_ok, Prod.mk.injEq, exists_eq_left, and_assoc,
    exists_and_left]

theorem newString_ok {content : Bytes} {result : Value × State} :
    newString content state = .ok result ↔
      result = (.string (state.textIndex content), state.addText content) := by
  exact ⟨fun run => (Except.ok.inj run).symm, fun same => same ▸ rfl⟩

theorem newBlock_ok {label : Bytes} {result : BlockName × State} :
    newBlock label state = .ok result ↔ result = (state.blockName label, state.addBlock label) := by
  exact ⟨fun run => (Except.ok.inj run).symm, fun same => same ▸ rfl⟩

theorem enter_ok {name : BlockName} {result : Unit × State} :
    enter name state = .ok result ↔ result = ((), state.enter name) := by
  exact ⟨fun run => (Except.ok.inj run).symm, fun same => same ▸ rfl⟩

theorem isOpen_ok {result : Bool × State} :
    isOpen state = .ok result ↔ result = (state.isOpen, state) := by
  simp only [isOpen, bind_ok, get_ok, pure_ok, Prod.mk.injEq, and_assoc, exists_eq_left,
    exists_and_left]
  rfl

theorem connect_ok {target : BlockName} {result : Unit × State} :
    connect target state = .ok result ↔ result = ((), state.connect target) := by
  exact ⟨fun run => (Except.ok.inj run).symm, fun same => same ▸ rfl⟩

theorem jump_ok {target : BlockName} {result : Unit × State} :
    jump target state = .ok result ↔ result = ((), state.jump target) := by
  simp only [jump, bind_ok, emit_ok, connect_ok, Prod.mk.injEq, true_and, exists_eq_left,
    exists_const, State.jump]

theorem branch_ok {condition : Value} {ifTrue ifFalse : BlockName} {result : Unit × State} :
    branch condition ifTrue ifFalse state = .ok result ↔
      result = ((), state.branch condition ifTrue ifFalse) := by
  simp only [branch, bind_ok, emit_ok, connect_ok, Prod.mk.injEq, true_and, exists_eq_left,
    exists_const, State.branch]

theorem jumpIfOpen_ok {target : BlockName} {result : Unit × State} :
    jumpIfOpen target state = .ok result ↔ result = ((), state.jumpIfOpen target) := by
  simp only [jumpIfOpen, bind_ok, isOpen_ok, Prod.mk.injEq, and_assoc, exists_eq_left,
    exists_and_left, State.jumpIfOpen]
  split
  · exact jump_ok
  · exact pure_ok

theorem newSlot_ok {type : BasicType} {name : Bytes} {result : Place × State} :
    newSlot type name state = .ok result ↔
      result = (⟨state.nextId, name, type⟩, state.define (.alloca ⟨state.nextId, name, type⟩)) := by
  simp only [newSlot, bind_ok, freshId_ok, emit_ok, pure_ok, Prod.mk.injEq, and_assoc,
    exists_eq_left, exists_and_left, true_and, exists_const, State.define]

theorem bindSlot_ok {symbol : Symbol} {slot : Place} {result : Unit × State} :
    bindSlot symbol slot state = .ok result ↔ result = ((), state.bindSlot symbol slot) := by
  exact ⟨fun run => (Except.ok.inj run).symm, fun same => same ▸ rfl⟩

theorem holdValue_ok {symbol : Symbol} {type : BasicType} {value : Value} {result : Unit × State} :
    holdValue symbol type value state = .ok result ↔
      result = ((), state.hold symbol type value) := by
  simp only [holdValue, bind_ok, newSlot_ok, emit_ok, bindSlot_ok, Prod.mk.injEq, and_assoc,
    exists_eq_left, exists_and_left, true_and, exists_const, State.hold]

theorem slotOf_ok {symbol : Symbol} {result : Place × State} :
    slotOf symbol state = .ok result ↔
      ∃ slot, state.slot? symbol = some slot ∧ result = (slot, state) := by
  simp only [slotOf, bind_ok, get_ok, Prod.mk.injEq, and_assoc, exists_eq_left, exists_and_left,
    State.slot?]
  cases state.slots.find? fun entry => entry.1 == (symbol.context, symbol.index) with
  | none => simp [lost_ok]
  | some entry => simp [pure_ok]

theorem onTable_ok {α : Type} {context : Context}
    {step : ScopeTable → Except Diagnostic (α × ScopeTable)} {result : α × State} :
    onTable context step state = .ok result ↔ context < state.nextContext ∧
      ∃ table, step state.table = .ok (result.1, table) ∧ result.2 = state.withTable table := by
  simp only [onTable, bind_ok, tableAt_ok, Prod.mk.injEq, and_assoc, exists_eq_left,
    exists_and_left]
  refine and_congr_right fun _ => ?_
  obtain ⟨answer, last⟩ := result
  cases step state.table with
  | error diagnostic => simp [throw, throwThe, MonadExceptOf.throw, StateT.lift, bind, Except.bind]
  | ok outcome =>
      obtain ⟨value, table⟩ := outcome
      simp only [bind_ok, pure_ok, Except.ok.injEq, Prod.mk.injEq]
      constructor
      · rintro ⟨_, middle, placed, rfl, rfl⟩
        exact ⟨table, ⟨rfl, rfl⟩, (Prod.mk.inj (Except.ok.inj placed)).2.symm⟩
      · rintro ⟨table', ⟨rfl, rfl⟩, rfl⟩
        exact ⟨(), _, rfl, rfl, rfl⟩

theorem openScope_ok {context : Context} {kind : ScopeKind} {label : Bytes}
    {result : Context × State} :
    openScope context kind label state = .ok result ↔ context < state.nextContext ∧
      result = (state.nextContext, state.openScope context kind label) := by
  rw [openScope, onTable_ok]
  refine and_congr_right fun _ => ?_
  obtain ⟨answer, last⟩ := result
  simp only [ScopeTable.child, Except.ok.injEq, Prod.mk.injEq, State.nextContext, State.openScope]
  constructor
  · rintro ⟨table, ⟨rfl, rfl⟩, rfl⟩
    exact ⟨rfl, rfl⟩
  · rintro ⟨rfl, rfl⟩
    exact ⟨_, ⟨rfl, rfl⟩, rfl⟩

theorem openBlock_ok {result : Unit × State} :
    openBlock state = .ok result ↔ result = ((), state.opened) := by
  simp only [openBlock, bind_ok, isOpen_ok, Prod.mk.injEq, and_assoc, exists_eq_left,
    exists_and_left, State.opened]
  cases state.isOpen with
  | true => simp [pure_ok]
  | false => simp [bind_ok, newBlock_ok, enter_ok, and_assoc]

end Primitives

end ScriptCompiler.Lowering
