import ScriptCompiler.Proofs.IR.Soundness
import ScriptCompiler.Proofs.Lowering.Scopes
import ScriptCompiler.Proofs.Statics.Rules

/-!
# Lowering as a decision of the static rules

A part of lowering decides a rule when it succeeds exactly if the rule gives an outcome, and its
result shows that outcome.  Parts that follow each other decide rules that follow each other, so
that both directions, that lowering accepts nothing else and that it refuses nothing of this, are
carried through at once.

What lowering knows of scopes is compared with an environment of the rules scope by scope.
-/

namespace ScriptCompiler.Lowering

open IR Build Statics

/-- A part of lowering succeeds exactly if a rule gives an outcome, with a result that shows it. -/
structure Decides {α β : Type} (before : State → Prop) (part : Build α) (rule : β → Prop)
    (after : β → α → State → Prop) : Prop where
  /-- What succeeds has an outcome. -/
  sound : ∀ {state last : State} {value : α}, before state → part state = .ok (value, last) →
    ∃ outcome, rule outcome ∧ after outcome value last
  /-- What has an outcome succeeds. -/
  complete : ∀ {state : State} {outcome : β}, before state → rule outcome →
    ∃ value last, part state = .ok (value, last) ∧ after outcome value last

namespace Decides

variable {α β γ δ : Type} {before : State → Prop} {part : Build α} {rule : β → Prop}
  {after : β → α → State → Prop}

/-- Rules that follow each other. -/
theorem bind {next : α → Build γ} {rule' : β → δ → Prop} {after' : δ → γ → State → Prop}
    (first : Decides before part rule after)
    (second : ∀ outcome value, rule outcome →
      Decides (after outcome value) (next value) (rule' outcome) after') :
    Decides before (part >>= next) (fun last => ∃ outcome, rule outcome ∧ rule' outcome last)
      after' where
  sound := by
    intro state last value starts run
    obtain ⟨found, middle, firstRun, secondRun⟩ := bind_ok.mp run
    obtain ⟨outcome, applies, shows⟩ := first.sound starts firstRun
    obtain ⟨final, follows, ends⟩ := (second outcome found applies).sound shows secondRun
    exact ⟨final, ⟨outcome, applies, follows⟩, ends⟩
  complete := by
    rintro state final starts ⟨outcome, applies, follows⟩
    obtain ⟨found, middle, firstRun, shows⟩ := first.complete starts applies
    obtain ⟨value, last, secondRun, ends⟩ := (second outcome found applies).complete shows follows
    exact ⟨value, last, bind_ok.mpr ⟨found, middle, firstRun, secondRun⟩, ends⟩

/-- Another way to say what the outcome is. -/
theorem convert {rule' : γ → Prop} {after' : γ → α → State → Prop}
    (decides : Decides before part rule after)
    (onwards : ∀ outcome, rule outcome → ∃ final, rule' final ∧
      ∀ value last, after outcome value last → after' final value last)
    (backwards : ∀ final, rule' final → ∃ outcome, rule outcome ∧
      ∀ value last, after outcome value last → after' final value last) :
    Decides before part rule' after' where
  sound := by
    intro state last value starts run
    obtain ⟨outcome, applies, shows⟩ := decides.sound starts run
    obtain ⟨final, applies', transfer⟩ := onwards outcome applies
    exact ⟨final, applies', transfer value last shows⟩
  complete := by
    intro state final starts applies'
    obtain ⟨outcome, applies, transfer⟩ := backwards final applies'
    obtain ⟨value, last, run, shows⟩ := decides.complete starts applies
    exact ⟨value, last, run, transfer value last shows⟩

theorem congr {rule' : β → Prop} (decides : Decides before part rule after)
    (rules : ∀ outcome, rule outcome ↔ rule' outcome) : Decides before part rule' after :=
  decides.convert
    (fun outcome applies => ⟨outcome, (rules outcome).mp applies, fun _ _ shows => shows⟩)
    fun outcome applies => ⟨outcome, (rules outcome).mpr applies, fun _ _ shows => shows⟩

/-- A fact about the beginning may be used to decide. -/
theorem of_fact {fact : Prop} (decides : fact → Decides before part rule after) :
    Decides (fun state => fact ∧ before state) part rule after where
  sound := fun starts => (decides starts.1).sound starts.2
  complete := fun starts => (decides starts.1).complete starts.2

/-- A fact that holds at every beginning may be used to decide. -/
theorem of_before {fact : Prop} (known : ∀ state, before state → fact)
    (decides : fact → Decides before part rule after) : Decides before part rule after where
  sound := fun starts => (decides (known _ starts)).sound starts
  complete := fun starts => (decides (known _ starts)).complete starts

/-- What follows a part that yields a known value. -/
theorem known {middle : State → Prop} {test : Prop} {value : α} {next : α → Build γ}
    {rule' : δ → Prop} {after' : δ → γ → State → Prop}
    (gives : Decides before part (fun _ : Unit => test) fun _ found last => found = value ∧
      middle last)
    (decides : test → Decides middle (next value) rule' after') :
    Decides before (part >>= next) (fun outcome => test ∧ rule' outcome) after' := by
  have rest : ∀ found, test →
      Decides (fun state => found = value ∧ middle state) (next found) rule' after' := by
    refine fun found holds => .of_fact fun same => ?_
    subst same
    exact decides holds
  exact (gives.bind fun _ found holds => rest found holds).congr fun outcome => by simp

/-- What is known may be implied by what follows. -/
theorem implied {middle : State → Prop} {test : Prop} {value : α} {next : α → Build γ}
    {rule' : δ → Prop} {after' : δ → γ → State → Prop}
    (gives : Decides before part (fun _ : Unit => test) fun _ found last => found = value ∧
      middle last)
    (implies : ∀ outcome, rule' outcome → test)
    (decides : test → Decides middle (next value) rule' after') :
    Decides before (part >>= next) rule' after' :=
  (gives.known decides).congr fun outcome =>
    ⟨And.right, fun applies => ⟨implies outcome applies, applies⟩⟩

theorem pure {value : α} {outcome : β} (shows : ∀ state, before state → after outcome value state) :
    Decides before (pure value) (fun other => other = outcome) after where
  sound := by
    intro state last found starts run
    obtain ⟨rfl, rfl⟩ := Prod.mk.inj (pure_ok.mp run)
    exact ⟨outcome, rfl, shows _ starts⟩
  complete := by
    rintro state _ starts rfl
    exact ⟨value, state, pure_ok.mpr rfl, shows _ starts⟩

theorem refuse {context : Context} {position : Position} {fault : LoweringFault} :
    Decides before (refuse context position fault : Build α) (fun _ : β => False) after where
  sound := fun _ run => absurd run refuse_ok
  complete := fun _ impossible => impossible.elim

theorem guard {test : Prop} [Decidable test] {context : Context} {position : Position}
    {fault : LoweringFault} {skipped : PUnit → Build α}
    (decides : ¬ test → Decides before part rule after) :
    Decides before (if test then Lowering.refuse context position fault >>= skipped else part)
      (fun outcome => ¬ test ∧ rule outcome) after where
  sound := by
    intro state last value starts run
    obtain ⟨passes, run⟩ := guard_ok.mp run
    obtain ⟨outcome, applies, shows⟩ := (decides passes).sound starts run
    exact ⟨outcome, ⟨passes, applies⟩, shows⟩
  complete := by
    rintro state outcome starts ⟨passes, applies⟩
    obtain ⟨value, last, run, shows⟩ := (decides passes).complete starts applies
    exact ⟨value, last, guard_ok.mpr ⟨passes, run⟩, shows⟩

end Decides

/-! ### Scopes and environments -/

/-- What the rules know of a meaning. -/
def Meaning.denoted : Meaning → Denoted
  | .variable place => .variable place.type
  | .function signature => .function signature

/-- What the rules know of a symbol. -/
def State.entry (state : State) (symbol : Symbol) : Bytes × Denoted :=
  (symbol.name, (state.meaning symbol).denoted)

/-- A context is there, inside a parent, and declares what a scope lists. -/
def State.Shows (state : State) (context : Context) (parent : Option Context) (scope : Scope) :
    Prop :=
  ∃ record, state.table.record? context = some record ∧ record.parent = parent ∧
    record.symbols.map state.entry = scope

/-- The contexts from one to the root declare what an environment lists. -/
inductive State.Chain (state : State) : List Context → Env → Prop where
  | nil : Chain state [] []
  | cons {context : Context} {contexts : List Context} {scope : Scope} {env : Env} :
      state.Shows context contexts.head? scope → Chain state contexts env →
      Chain state (context :: contexts) (scope :: env)

/-- Variables and parameters hold values, and results have types. -/
def Proper : Denoted → Prop
  | .variable type => type.IsValue
  | .function signature => (∀ type ∈ signature.params, type.IsValue) ∧ signature.result ≠ .invalid

/-- Where lowering is: a chain of contexts, contexts aside that are still empty, and the result of
the function. -/
structure Scene where
  /-- The contexts from the current one to the root. -/
  contexts : List Context
  /-- Contexts that nothing is declared in yet. -/
  idle : List Context
  /-- The result of the function. -/
  result : BasicType

/-- The state in a scene agrees with an environment. -/
structure State.Sees (scene : Scene) (env : Env) (state : State) : Prop where
  /-- The scopes are well ordered and their symbols placed. -/
  wellScoped : state.WellScoped
  /-- The contexts declare what the environment lists. -/
  chain : state.Chain scene.contexts env
  /-- Idle contexts stand aside, empty. -/
  idle : ∀ context ∈ scene.idle, context ∉ scene.contexts ∧
    state.Shows context (some ScopeTable.root) []
  /-- What is declared can be used. -/
  proper : ∀ scope ∈ env, ∀ entry ∈ scope, Proper entry.2
  /-- The function has the result. -/
  result_eq : state.function.result = scene.result

section Views

variable {state after : State} {context other : Context} {parent : Option Context} {scope : Scope}
  {contexts : List Context} {env : Env} {symbol owned : Symbol} {name : Bytes}

theorem State.Shows.inside (shows : state.Shows context parent scope) :
    context < state.nextContext := by
  obtain ⟨record, found, -⟩ := shows
  exact (List.getElem?_eq_some_iff.mp found).1

theorem State.Shows.congr (shows : state.Shows context parent scope)
    (tables : after.table = state.table) (slots : after.slots = state.slots) :
    after.Shows context parent scope := by
  obtain ⟨record, found, above, listed⟩ := shows
  have entries : after.entry = state.entry := by
    funext symbol
    simp only [State.entry, State.meaning, State.slot?, slots]
  exact ⟨record, tables ▸ found, above, entries ▸ listed⟩

theorem State.Shows.use (shows : state.Shows context parent scope) :
    (state.use symbol name).Shows context parent scope := by
  obtain ⟨record, found, above, listed⟩ := shows
  have tables : (state.use symbol name).table = state.table.update symbol.context fun record =>
      { record with symbols := record.symbols.map (markSymbol name) } := rfl
  by_cases same : context = symbol.context
  · refine ⟨{ record with symbols := record.symbols.map (markSymbol name) }, ?_, above, ?_⟩
    · rw [tables, ScopeTable.record?_update, found, Option.map_some, if_pos same]
    · rw [List.map_map, ← listed]
      refine List.map_congr_left fun declared _ => ?_
      simp only [Function.comp_apply, State.entry, markSymbol]
      split <;> rfl
  · refine ⟨record, ?_, above, listed⟩
    rw [tables, ScopeTable.record?_update, found, Option.map_some, if_neg same]

theorem State.Shows.openScope {kind : ScopeKind} {label : Bytes}
    (shows : state.Shows context parent scope) :
    (state.openScope other kind label).Shows context parent scope := by
  have inside := shows.inside
  obtain ⟨record, found, above, listed⟩ := shows
  exact ⟨record, (ScopeTable.record?_child inside).trans found, above, listed⟩

theorem State.shows_nextContext {kind : ScopeKind} {label : Bytes} :
    (state.openScope context kind label).Shows state.nextContext (some context) [] := by
  obtain ⟨depth, self⟩ := state.table.record?_child_self context kind label
  exact ⟨_, self, rfl, rfl⟩

/-- The symbols that a context declares mean afterwards what they meant. -/
theorem Declares.map_entry (declared : Declares state after other symbol owned)
    (before : state.WellScoped) {record : ScopeRecord}
    (found : state.table.record? context = some record) :
    record.symbols.map after.entry = record.symbols.map state.entry := by
  refine List.map_congr_left fun earlier member => ?_
  obtain ⟨index, there⟩ := List.mem_iff_getElem?.mp member
  rw [State.entry, declared.meaning_eq (before.key_ne declared.declares found there), State.entry]

theorem State.Shows.declare_of_ne (shows : state.Shows context parent scope)
    (declared : Declares state after other symbol owned) (before : state.WellScoped)
    (differ : context ≠ other) : after.Shows context parent scope := by
  obtain ⟨record, found, above, listed⟩ := shows
  obtain ⟨-, -, tables⟩ := ScopeTable.declare_ok declared.declares
  refine ⟨record, ?_, above, (declared.map_entry before found).trans listed⟩
  rw [tables, ScopeTable.record?_update, found, Option.map_some, if_neg differ]

theorem State.Shows.declare (shows : state.Shows context parent scope)
    (declared : Declares state after context symbol owned) (before : state.WellScoped) :
    after.Shows context parent
      (scope ++ [(symbol.name, (after.meaning owned).denoted)]) := by
  obtain ⟨record, found, above, listed⟩ := shows
  obtain ⟨-, isOwned, tables⟩ := ScopeTable.declare_ok declared.declares
  refine ⟨{ record with symbols := record.symbols ++ [owned] }, ?_, above, ?_⟩
  · rw [tables, ScopeTable.record?_update, found, Option.map_some, if_pos rfl]
  · have named : owned.name = symbol.name := by rw [isOwned]
    rw [List.map_append, declared.map_entry before found, listed, List.map_singleton,
      State.entry, named]

theorem State.Chain.mono (chain : state.Chain contexts env)
    (keeps : ∀ context ∈ contexts, ∀ {parent scope},
      state.Shows context parent scope → after.Shows context parent scope) :
    after.Chain contexts env := by
  induction chain with
  | nil => exact .nil
  | cons shows _ ih =>
      exact .cons (keeps _ List.mem_cons_self shows) (ih fun context member => keeps context
        (List.mem_cons_of_mem _ member))

/-- The contexts around a context stand before it. -/
theorem State.Chain.lt (chain : state.Chain (context :: contexts) env)
    (wellScoped : state.WellScoped) :
    ∀ other ∈ contexts, other < context := by
  induction contexts generalizing context env with
  | nil => exact List.forall_mem_nil _
  | cons parent contexts ih =>
      cases chain with
      | cons shows rest =>
          obtain ⟨record, found, above, -⟩ := shows
          have below := wellScoped.ordered context record parent found above
          intro other member
          rcases List.mem_cons.mp member with rfl | member
          · exact below
          · exact Nat.lt_trans (ih rest other member) below

theorem lookup_map_entry (symbols : List Symbol) (name : Bytes) :
    (symbols.map state.entry).lookup name =
      (symbols.find? fun symbol => symbol.name == name).map fun symbol =>
        (state.meaning symbol).denoted := by
  induction symbols with
  | nil => rfl
  | cons symbol symbols ih =>
      rw [List.map_cons, State.entry, List.lookup_cons, List.find?_cons, BEq.comm]
      cases symbol.name == name with
      | true => rfl
      | false => exact ih

/-- A name stands for what its own scope declares or for what it stands for around it. -/
theorem State.Shows.find? (shows : state.Shows context parent scope) (wellScoped : state.WellScoped)
    (name : Bytes) :
    (state.meaning? context name).map Meaning.denoted =
      (scope.lookup name).or (parent.bind fun parent =>
        (state.meaning? parent name).map Meaning.denoted) := by
  obtain ⟨record, found, rfl, rfl⟩ := shows
  rw [State.meaning?, ScopeTable.find?_eq wellScoped.ordered, ScopeTable.local?, ScopeTable.parent?,
    found, Option.map_map, lookup_map_entry, Option.map_or]
  cases above : record.parent with
  | none => simp [above, ScopeRecord.find?, Function.comp_def]
  | some parent => simp [above, ScopeRecord.find?, State.meaning?, Function.comp_def]

/-- A name stands for what it denotes. -/
theorem State.Chain.find? (chain : state.Chain (context :: contexts) env)
    (wellScoped : state.WellScoped) (name : Bytes) :
    (state.meaning? context name).map Meaning.denoted = env.find? name := by
  induction contexts generalizing context env with
  | nil =>
      cases chain with
      | cons shows rest =>
          cases rest
          rw [shows.find? wellScoped, Env.find?, List.findSome?_cons, List.findSome?_nil]
          cases List.lookup name _ <;> rfl
  | cons parent contexts ih =>
      cases chain with
      | cons shows rest =>
          rw [shows.find? wellScoped, Env.find?, List.findSome?_cons, List.head?_cons,
            Option.bind_some, ih rest, Env.find?]
          cases List.lookup name _ <;> rfl

end Views

end ScriptCompiler.Lowering
