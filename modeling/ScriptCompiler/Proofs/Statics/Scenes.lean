import ScriptCompiler.Proofs.Statics.Deciding

/-!
# Scenes of lowering

How a scene changes: names are used, scopes are opened and left, variables are declared.  Everything
else that lowering does is quiet; it always succeeds and touches no scope.
-/

namespace ScriptCompiler.Lowering

open IR Build Statics

variable {α β γ δ : Type} {scene : Scene} {env outer : Env} {own scope : Scope}
    {state after : State}
  {context : Context}

/-- The scene inside a context. -/
def Scene.inner (scene : Scene) (context : Context) : Scene :=
  { scene with contexts := context :: scene.contexts }

namespace State.Sees

theorem congr (sees : state.Sees scene env) (tables : after.table = state.table)
    (slots : after.slots = state.slots) (results : after.function.result = state.function.result) :
    after.Sees scene env where
  wellScoped := sees.wellScoped.congr tables slots
  chain := sees.chain.mono fun _ _ _ _ shows => shows.congr tables slots
  idle := fun context member =>
    ⟨(sees.idle context member).1, (sees.idle context member).2.congr tables slots⟩
  proper := sees.proper
  result_eq := results.trans sees.result_eq

theorem use (sees : state.Sees scene env) {symbol : Symbol} {name : Bytes} :
    (state.use symbol name).Sees scene env where
  wellScoped := sees.wellScoped.use symbol
  chain := sees.chain.mono fun _ _ _ _ shows => shows.use
  idle := fun context member => ⟨(sees.idle context member).1, (sees.idle context member).2.use⟩
  proper := sees.proper
  result_eq := sees.result_eq

theorem inside (sees : state.Sees (scene.inner context) env) : context < state.nextContext := by
  cases sees.chain with
  | cons shows _ => exact shows.inside

theorem find? (sees : state.Sees (scene.inner context) env) (name : Bytes) :
    (state.meaning? context name).map Meaning.denoted = env.find? name :=
  sees.chain.find? sees.wellScoped name

theorem proper_of_find? (sees : state.Sees scene env) {name : Bytes} {denoted : Denoted}
    (found : env.find? name = some denoted) : Proper denoted := by
  obtain ⟨scope, member, found⟩ := List.exists_of_findSome?_eq_some found
  obtain ⟨before, behind, rfl, -⟩ := List.lookup_eq_some_iff.mp found
  exact sees.proper _ member (name, denoted) (List.mem_append_right _ List.mem_cons_self)

/-- A new scope declares nothing. -/
theorem openScope (sees : state.Sees (scene.inner context) env) {kind : ScopeKind} {label : Bytes} :
    (state.openScope context kind label).Sees ((scene.inner context).inner state.nextContext)
      ([] :: env) where
  wellScoped := sees.wellScoped.openScope sees.inside
  chain := .cons State.shows_nextContext (sees.chain.mono fun _ _ _ _ shows => shows.openScope)
  idle := by
    intro other member
    obtain ⟨apart, shows⟩ := sees.idle other member
    refine ⟨fun inside => ?_, shows.openScope⟩
    rcases List.mem_cons.mp inside with rfl | inside
    · exact Nat.lt_irrefl _ shows.inside
    · exact apart inside
  proper := List.forall_mem_cons.mpr ⟨List.forall_mem_nil _, sees.proper⟩
  result_eq := sees.result_eq

/-- Behind a scope there is what was before it. -/
theorem leave (sees : state.Sees (scene.inner context) (scope :: env)) : state.Sees scene env where
  wellScoped := sees.wellScoped
  chain := by
    cases sees.chain with
    | cons _ rest => exact rest
  idle := fun other member =>
    ⟨fun inside => (sees.idle other member).1 (List.mem_cons_of_mem _ inside),
      (sees.idle other member).2⟩
  proper := fun scope member => sees.proper scope (List.mem_cons_of_mem _ member)
  result_eq := sees.result_eq

/-- A declaration is added to the current scope and to no other one. -/
theorem declare (sees : state.Sees (scene.inner context) (own :: outer)) {symbol owned : Symbol}
    {denoted : Denoted} (declared : Declares state after context symbol owned)
    (means : (after.meaning owned).denoted = denoted) (proper : Proper denoted)
    (results : after.function.result = state.function.result) :
    after.Sees (scene.inner context) ((own ++ [(symbol.name, denoted)]) :: outer) where
  wellScoped := declared.wellScoped sees.wellScoped
  chain := by
    have before := sees.chain.lt sees.wellScoped
    cases sees.chain with
    | cons shows rest =>
        rw [← means]
        exact .cons (shows.declare declared sees.wellScoped)
          (rest.mono fun other member _ _ outside =>
          outside.declare_of_ne declared sees.wellScoped (Nat.ne_of_lt (before other member)))
  idle := by
    intro other member
    obtain ⟨apart, shows⟩ := sees.idle other member
    exact ⟨apart, shows.declare_of_ne declared sees.wellScoped
      fun same => apart (same ▸ List.mem_cons_self)⟩
  proper := by
    have ⟨first, rest⟩ := List.forall_mem_cons.mp sees.proper
    refine List.forall_mem_cons.mpr ⟨fun entry member => ?_, rest⟩
    rcases List.mem_append.mp member with earlier | new
    · exact first entry earlier
    · rw [List.mem_singleton.mp new]
      exact proper
  result_eq := results.trans sees.result_eq

/-- Whether a name is declared in the current scope itself. -/
theorem local?_eq_none_iff (sees : state.Sees (scene.inner context) (own :: outer)) {name : Bytes} :
    state.table.local? context name = none ↔ name ∉ own.names := by
  cases sees.chain with
  | cons shows _ =>
      obtain ⟨record, found, -, rfl⟩ := shows
      simp [ScopeTable.local?, found, ScopeRecord.find?, Scope.names, State.entry]

end State.Sees

/-- A part of lowering that always succeeds, touches no scope and leaves the head of the function
alone. -/
def Quiet (part : Build α) (yields : α → Prop) : Prop :=
  ∀ state, ∃ value last, part state = .ok (value, last) ∧ yields value ∧ last.table = state.table ∧
    last.slots = state.slots ∧ last.function.result = state.function.result

namespace Quiet

variable {part : Build α} {yields : α → Prop}

theorem pure {value : α} (shown : yields value) : Quiet (pure value) yields :=
  fun state => ⟨value, state, pure_ok.mpr rfl, shown, rfl, rfl, rfl⟩

theorem done (value : α) : Quiet (Pure.pure value : Build α) fun _ => True := pure trivial

theorem bind {next : α → Build β} {yields' : β → Prop} (first : Quiet part yields)
    (second : ∀ value, yields value → Quiet (next value) yields') :
    Quiet (part >>= next) yields' := by
  intro state
  obtain ⟨value, middle, firstRun, shown, tables, slots, results⟩ := first state
  obtain ⟨final, last, secondRun, shown', tables', slots', results'⟩ := second value shown middle
  exact ⟨final, last, bind_ok.mpr ⟨value, middle, firstRun, secondRun⟩, shown',
    tables'.trans tables,
    slots'.trans slots, results'.trans results⟩

theorem mono {yields' : α → Prop} (quiet : Quiet part yields)
    (weaker : ∀ value, yields value → yields' value) : Quiet part yields' := by
  intro state
  obtain ⟨value, last, run, shown, same⟩ := quiet state
  exact ⟨value, last, run, weaker value shown, same⟩

/-- What is quiet decides nothing. -/
theorem then_ {next : α → Build γ} {rule : δ → Prop} {after : δ → γ → State → Prop}
    (quiet : Quiet part yields)
    (decides : ∀ value, yields value → Decides (State.Sees scene env) (next value) rule after) :
    Decides (State.Sees scene env) (part >>= next) rule after where
  sound := by
    intro state last value sees run
    obtain ⟨found, middle, quietRun, shown, tables, slots, results⟩ := quiet state
    obtain ⟨found', middle', otherRun, run⟩ := bind_ok.mp run
    obtain ⟨rfl, rfl⟩ := Prod.mk.inj (Except.ok.inj (quietRun.symm.trans otherRun))
    exact (decides found shown).sound (sees.congr tables slots results) run
  complete := by
    intro state outcome sees applies
    obtain ⟨found, middle, quietRun, shown, tables, slots, results⟩ := quiet state
    obtain ⟨value, last, run, shows⟩ :=
      (decides found shown).complete (sees.congr tables slots results) applies
    exact ⟨value, last, bind_ok.mpr ⟨found, middle, quietRun, run⟩, shows⟩

theorem decides {outcome : β} {after : β → α → State → Prop} (quiet : Quiet part yields)
    (shows : ∀ value state, yields value → state.Sees scene env → after outcome value state) :
    Decides (State.Sees scene env) part (fun other => other = outcome) after := by
  have split : part = part >>= fun value => Pure.pure value := (bind_pure part).symm
  rw [split]
  exact quiet.then_ fun value shown => .pure fun state sees => shows value state shown sees

section Primitives

theorem emit (instr : Instr) : Quiet (Lowering.emit instr) fun _ => True :=
  fun state => ⟨(), state.emit instr, rfl, trivial, rfl, rfl, rfl⟩

theorem freshTemp (type : BasicType) :
    Quiet (Lowering.freshTemp type) fun temp => temp.type = type :=
  fun state => ⟨⟨state.nextId, type⟩, state.skip, freshTemp_ok.mpr rfl, rfl, rfl, rfl, rfl⟩

/-- An instruction that defines a value of a type. -/
theorem define (type : BasicType) (instr : Temp → Instr) :
    Quiet (do
      let dest ← Lowering.freshTemp type
      Lowering.emit (instr dest)
      return Value.temp dest) fun value => value.type = type :=
  (freshTemp type).bind fun _ typed => (emit _).bind fun _ _ => .pure typed

theorem newConstant (constant : Constant) :
    Quiet (Lowering.newConstant constant) fun value => value = .constant constant :=
  fun state => ⟨_, state.skip, newConstant_ok.mpr rfl, rfl, rfl, rfl, rfl⟩

theorem newString (content : Bytes) :
    Quiet (Lowering.newString content) fun value => value.type = .string :=
  fun state => ⟨_, state.addText content, newString_ok.mpr rfl, rfl, rfl, rfl, rfl⟩

theorem newBlock (label : Bytes) : Quiet (Lowering.newBlock label) fun _ => True :=
  fun state => ⟨_, state.addBlock label, newBlock_ok.mpr rfl, trivial, rfl, rfl, rfl⟩

theorem enter (name : BlockName) : Quiet (Lowering.enter name) fun _ => True :=
  fun state => ⟨(), state.enter name, enter_ok.mpr rfl, trivial, rfl, rfl, rfl⟩

theorem connect (target : BlockName) : Quiet (Lowering.connect target) fun _ => True :=
  fun state => by
    refine ⟨(), state.connect target, connect_ok.mpr rfl, trivial, rfl, rfl, ?_⟩
    simp only [State.connect, Function.addEdge]
    repeat' split
    all_goals rfl

theorem isOpen : Quiet Lowering.isOpen fun _ => True :=
  fun state => ⟨_, state, isOpen_ok.mpr rfl, trivial, rfl, rfl, rfl⟩

theorem jump (target : BlockName) : Quiet (Lowering.jump target) fun _ => True :=
  (emit _).bind fun _ _ => connect target

theorem branch (condition : Value) (ifTrue ifFalse : BlockName) :
    Quiet (Lowering.branch condition ifTrue ifFalse) fun _ => True :=
  (emit _).bind fun _ _ => (connect ifTrue).bind fun _ _ => connect ifFalse

theorem jumpIfOpen (target : BlockName) : Quiet (Lowering.jumpIfOpen target) fun _ => True := by
  refine isOpen.bind fun isOpen _ => ?_
  cases isOpen with
  | true => exact jump target
  | false => exact .pure trivial

theorem openBlock : Quiet Lowering.openBlock fun _ => True := by
  refine isOpen.bind fun isOpen _ => ?_
  cases isOpen with
  | true => exact .pure trivial
  | false => exact (newBlock _).bind fun name _ => enter name

theorem newSlot (type : BasicType) (name : Bytes) :
    Quiet (Lowering.newSlot type name) fun slot => slot.type = type :=
  fun _ => ⟨_, _, newSlot_ok.mpr rfl, rfl, rfl, rfl, rfl⟩

theorem loadSlot (slot : Place) :
    Quiet (Lowering.loadSlot slot) fun value => value.type = slot.type :=
  define slot.type fun dest => .load dest (.slot slot)

theorem noValue : Quiet Lowering.noValue fun value => value.type = .void :=
  (freshTemp .void).bind fun _ typed => .pure typed

theorem zeroValue {type : BasicType} (isValue : type.IsValue) :
    Quiet (Lowering.zeroValue type) fun value => value.type = type := by
  cases type with
  | int => exact (newConstant _).mono fun value same => same ▸ rfl
  | float => exact (newConstant _).mono fun value same => same ▸ rfl
  | bool => exact (newConstant _).mono fun value same => same ▸ rfl
  | string => exact newString []
  | void => exact absurd rfl isValue.1
  | invalid => exact absurd rfl isValue.2

end Primitives

end Quiet

/-- A part of lowering that decides which type a value has. -/
abbrev Types (scene : Scene) (env : Env) (part : Build Value) (rule : BasicType → Prop) : Prop :=
  Decides (State.Sees scene env) part rule fun type value last =>
    value.type = type ∧ last.Sees scene env

theorem Quiet.types {part : Build Value} {type : BasicType}
    (quiet : Quiet part fun value => value.type = type) :
    Types scene env part fun other => other = type :=
  quiet.decides fun _ _ typed sees => ⟨typed, sees⟩

/-- What follows a value may depend on its type. -/
theorem Types.then_ {part : Build Value} {next : Value → Build γ} {rule : BasicType → Prop}
    {rule' : Value → δ → Prop} {rule'' : δ → Prop} {after : δ → γ → State → Prop}
    (types : Types scene env part rule)
    (decides : ∀ value : Value, rule value.type →
      Decides (State.Sees scene env) (next value) (rule' value) after)
    (onwards : ∀ value outcome, rule value.type → rule' value outcome → rule'' outcome)
    (backwards : ∀ outcome, rule'' outcome →
      ∃ type, rule type ∧ ∀ value : Value, value.type = type → rule' value outcome) :
    Decides (State.Sees scene env) (part >>= next) rule'' after where
  sound := by
    intro state last value sees run
    obtain ⟨found, middle, firstRun, secondRun⟩ := bind_ok.mp run
    obtain ⟨_, applies, rfl, sees⟩ := types.sound sees firstRun
    obtain ⟨outcome, follows, shows⟩ := (decides found applies).sound sees secondRun
    exact ⟨outcome, onwards found outcome applies follows, shows⟩
  complete := by
    intro state outcome sees applies
    obtain ⟨type, applies, follows⟩ := backwards outcome applies
    obtain ⟨found, middle, firstRun, rfl, sees⟩ := types.complete sees applies
    obtain ⟨value, last, secondRun, shows⟩ :=
      (decides found applies).complete sees (follows found rfl)
    exact ⟨value, last, bind_ok.mpr ⟨found, middle, firstRun, secondRun⟩, shows⟩

/-- A part of lowering that only checks something. -/
abbrev Tests (scene : Scene) (env : Env) (part : Build α) (test : Prop) : Prop :=
  Decides (State.Sees scene env) part (fun _ : Unit => test) fun _ _ last => last.Sees scene env

theorem Quiet.tests {part : Build α} {yields : α → Prop} (quiet : Quiet part yields) :
    Tests scene env part True where
  sound := fun sees run => by
    obtain ⟨value, last, quietRun, -, tables, slots, results⟩ := quiet _
    obtain ⟨rfl, rfl⟩ := Prod.mk.inj (Except.ok.inj (quietRun.symm.trans run))
    exact ⟨(), trivial, sees.congr tables slots results⟩
  complete := fun sees _ => by
    obtain ⟨value, last, run, -, tables, slots, results⟩ := quiet _
    exact ⟨value, last, run, sees.congr tables slots results⟩

theorem Tests.pure (value : α) : Tests scene env (pure value) True :=
  (Quiet.done value).tests

theorem Tests.then_ {part : Build α} {test : Prop} {next : α → Build γ} {rule : δ → Prop}
    {after : δ → γ → State → Prop} (tests : Tests scene env part test)
    (decides : ∀ value, test → Decides (State.Sees scene env) (next value) rule after) :
    Decides (State.Sees scene env) (part >>= next) (fun outcome => test ∧ rule outcome) after :=
  (tests.bind fun _ value holds => decides value holds).congr fun outcome => by simp

/-- A part of lowering that yields a known value if it succeeds. -/
abbrev Gives (scene : Scene) (env : Env) (part : Build α) (test : Prop) (value : α) : Prop :=
  Decides (State.Sees scene env) part (fun _ : Unit => test) fun _ found last =>
    found = value ∧ last.Sees scene env

theorem Gives.then_ {part : Build α} {test : Prop} {value : α} {next : α → Build γ}
    {rule : δ → Prop} {after : δ → γ → State → Prop} (gives : Gives scene env part test value)
    (decides : test → Decides (State.Sees scene env) (next value) rule after) :
    Decides (State.Sees scene env) (part >>= next) (fun outcome => test ∧ rule outcome) after :=
  gives.known decides

theorem Gives.pure (value : α) : Gives scene env (pure value) True value where
  sound := by
    intro state last found sees run
    obtain ⟨rfl, rfl⟩ := Prod.mk.inj (pure_ok.mp run)
    exact ⟨(), trivial, rfl, sees⟩
  complete := fun sees _ => ⟨value, _, pure_ok.mpr rfl, rfl, sees⟩

theorem Gives.map {part : Build α} {test : Prop} {value : α}
    (gives : Gives scene env part test value) (change : α → β) :
    Gives scene env (part >>= fun found => Pure.pure (change found)) test (change value) :=
  Decides.congr (gives.then_ fun _ => Gives.pure (change value)) fun _ => by simp

end ScriptCompiler.Lowering
