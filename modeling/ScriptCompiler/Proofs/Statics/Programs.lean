import Mathlib.Data.List.Nodup
import ScriptCompiler.Proofs.Lowering.BuiltModule
import ScriptCompiler.Proofs.Statics.Statements

/-!
# Lowering decides the static rules

A program is lowered exactly if it is well formed.  Functions are declared before any body is
lowered, so that bodies see them all; while other bodies are lowered, the scope at top level stands
aside.
-/

namespace ScriptCompiler.Lowering

open IR Build Statics

variable {α β γ δ : Type} {contexts idle : List Context} {env outer : Env} {own : Scope}
  {context parent : Context} {declaration : FunctionDecl}

/-- The state between functions agrees with an environment. -/
def State.Rests (contexts idle : List Context) (env : Env) (state : State) : Prop :=
  ∃ result, state.Sees ⟨contexts, idle, result⟩ env

section Functions

/-- The declared function before its body is lowered. -/
def headOf (declaration : FunctionDecl) : Declared :=
  ⟨declaration, .ofSignature declaration.name.name
    (declaration.params.map fun param => (param.name.name, namedType param.type))
    (signature declaration).result⟩

/-- Turning to a function that is still empty leaves the scopes alone. -/
theorem State.Rests.begin {state : State} (rests : state.Rests contexts idle env)
    (function : Function) :
    (state.begin function).Sees ⟨contexts, idle, function.result⟩ env := by
  obtain ⟨result, sees⟩ := rests
  exact
    { wellScoped := sees.wellScoped.congr rfl rfl
      chain := sees.chain.mono fun _ _ _ _ shows => shows.congr rfl rfl
      idle := fun context member =>
        ⟨(sees.idle context member).1, (sees.idle context member).2.congr rfl rfl⟩
      proper := sees.proper
      result_eq := rfl }

theorem beginFunction_then {function : Function} {next : Build γ} {rule : δ → Prop}
    {after : δ → γ → State → Prop}
    (decides : Decides (State.Sees ⟨contexts, idle, function.result⟩ env) next rule after) :
    Decides (State.Rests contexts idle env) (beginFunction function >>= fun _ => next) rule
      after where
  sound := by
    intro state last value rests run
    obtain ⟨_, middle, begun, run⟩ := bind_ok.mp run
    obtain ⟨-, rfl⟩ := Prod.mk.inj (beginFunction_ok.mp begun)
    exact decides.sound (rests.begin function) run
  complete := by
    intro state outcome rests applies
    obtain ⟨value, last, run, shows⟩ := decides.complete (rests.begin function) applies
    exact ⟨value, last, bind_ok.mpr ⟨(), _, beginFunction_ok.mpr rfl, run⟩, shows⟩

theorem State.finish_result (state : State) :
    state.finish.function.result = state.function.result := by
  have closes : ∀ (state : State) (block : Block),
      (state.close block).function.result = state.function.result := by
    intro state block
    unfold State.close State.returnZero
    split
    · rfl
    · split
      · rfl
      · cases (state.enter block.name).function.result <;> rfl
  suffices ∀ (blocks : List Block) (state : State),
      (blocks.foldl State.close state).function.result = state.function.result from
    this state.function.blocks state
  intro blocks
  induction blocks with
  | nil => exact fun _ => rfl
  | cons block rest ih => exact fun state => (ih (state.close block)).trans (closes state block)

theorem Quiet.finishFunction : Quiet Lowering.finishFunction fun _ => True := by
  intro state
  obtain ⟨-, tables, slots⟩ := state.finish_same
  exact ⟨_, _, finishFunction_ok.mpr rfl, trivial, tables, slots, state.finish_result⟩

/-- Parameters are declared exactly if their names are new. -/
theorem spillParams_extends {scene : Scene} {params : List (Param × Place)}
    (isValue : ∀ entry ∈ params, entry.2.type.IsValue) :
    Extends (scene.inner context) outer own (spillParams context params) fun last =>
      (params.map fun entry => entry.1.name.name).Nodup ∧
        (∀ entry ∈ params, entry.1.name.name ∉ own.names) ∧
        last = own ++ params.map fun entry =>
          (entry.1.name.name, Denoted.variable entry.2.type) := by
  induction params generalizing own with
  | nil => exact (Tests.pure ()).extends_.congr fun last => by simp
  | cons entry rest ih =>
      obtain ⟨param, place⟩ := entry
      obtain ⟨first, others⟩ := List.forall_mem_cons.mp isValue
      have one : Extends (scene.inner context) outer own (do
          let symbol ← onTable context fun table => table.declare context (paramSymbol param place)
          holdValue symbol place.type (.param place)) fun last =>
          param.name.name ∉ own.names ∧
            last = own ++ [(param.name.name, Denoted.variable place.type)] := by
        have quiet : Quiet (pure (.param place) : Build Value) fun _ => True := .done _
        have declared :=
          @declare_extends scene outer own context (paramSymbol param place) place.type
          _ _ rfl rfl first quiet
        simp only [pure_bind] at declared
        exact declared
      have split : spillParams context ((param, place) :: rest) = (do
          let symbol ← onTable context fun table => table.declare context (paramSymbol param place)
          holdValue symbol place.type (.param place)) >>= fun _ => spillParams context rest := by
        rw [spillParams, bind_assoc]
        rfl
      rw [split]
      refine (one.bind fun middle _ _ => ih others).congr fun last => ?_
      have names : ∀ type, Scope.names (own ++ [(param.name.name, Denoted.variable type)]) =
          own.names ++ [param.name.name] := fun type => List.map_append
      simp only [List.map_cons, List.nodup_cons, List.forall_mem_cons, List.mem_map,
        not_exists, not_and]
      constructor
      · rintro ⟨_, ⟨new, rfl⟩, distinct, news, rfl⟩
        simp only [names, List.mem_append, List.mem_singleton, not_or] at news
        exact ⟨⟨fun entry member => (news entry member).2, distinct⟩,
          ⟨new, fun entry member => (news entry member).1⟩, List.append_assoc ..⟩
      · rintro ⟨⟨apart, distinct⟩, ⟨new, news⟩, rfl⟩
        refine ⟨_, ⟨new, rfl⟩, distinct, fun entry member => ?_, by simp⟩
        rw [names, List.mem_append, List.mem_singleton, not_or]
        exact ⟨news entry member, apart entry member⟩

/-- The places of the parameters have the types that are annotated. -/
theorem map_zip_params {params : List Param} {places : List Place}
    (types : places.map Place.type = params.map fun param => namedType param.type) :
    (params.zip places).map (fun entry => (entry.1.name.name, Denoted.variable entry.2.type)) =
        params.map (fun param => (param.name.name, .variable (namedType param.type))) ∧
      ((params.zip places).map fun entry => entry.1.name.name) =
        params.map fun param => param.name.name := by
  induction params generalizing places with
  | nil => exact ⟨rfl, rfl⟩
  | cons param params ih =>
      cases places with
      | nil => cases types
      | cons place places =>
          obtain ⟨first, rest⟩ := List.cons.inj types
          obtain ⟨entries, names⟩ := ih rest
          exact ⟨by simp [entries, first], by simp [names]⟩

theorem isValue_namedType (annotated : Annotated declaration) :
    ∀ param ∈ declaration.params, (namedType param.type).IsValue := by
  intro param member
  obtain ⟨type, named, notVoid⟩ := annotated.params param member
  rw [namedType, named, Option.getD_some]
  exact ⟨notVoid, ofName?_ne_invalid named⟩

/-- The parameters of a function are the scope that its body begins in, if their names differ. -/
theorem spillHead_extends (annotated : Annotated declaration) {scene : Scene} :
    Extends (scene.inner context) env []
      (spillParams context (declaration.params.zip (headOf declaration).function.params))
        fun last =>
      (declaration.params.map fun param => param.name.name).Nodup ∧
        last = paramScope declaration := by
  have types : (headOf declaration).function.params.map Place.type =
      declaration.params.map fun param => namedType param.type := by
    rw [headOf, (params_ofSignature ..).1, List.map_map]
    rfl
  obtain ⟨entries, names⟩ := map_zip_params types
  have isValue : ∀ entry ∈ declaration.params.zip (headOf declaration).function.params,
      entry.2.type.IsValue := by
    intro entry member
    have listed : entry.2.type ∈ (headOf declaration).function.params.map Place.type :=
      List.mem_map_of_mem (List.of_mem_zip member).2
    rw [types] at listed
    obtain ⟨param, there, same⟩ := List.mem_map.mp listed
    exact same ▸ isValue_namedType annotated param there
  refine (spillParams_extends isValue).congr fun last => ?_
  rw [entries, names]
  constructor
  · rintro ⟨distinct, -, rfl⟩
    exact ⟨distinct, rfl⟩
  · rintro ⟨distinct, rfl⟩
    exact ⟨distinct, fun _ _ => List.not_mem_nil, rfl⟩

/-- **Lowering a function decides whether it is well formed behind the statements of a
prologue.** -/
theorem lowerFunction_decides (annotated : Annotated declaration) {prologue : List Stmt} :
    Decides (State.Rests (parent :: contexts) idle (own :: outer))
      (lowerFunction parent prologue (headOf declaration))
      (fun top => AdmitsAll (signature declaration).result false outer own prologue top ∧
        AdmitsFunction (top :: outer) declaration)
      fun top _ last => last.Rests (parent :: contexts) idle (top :: outer) := by
  -- The parameters and the body in the scope of the function.
  have inner : ∀ (top : Scope) (scope : Context),
      Extends ⟨scope :: parent :: contexts, idle, (signature declaration).result⟩
        (top :: outer) [] (do
        spillParams scope (declaration.params.zip (headOf declaration).function.params)
        lowerStmts scope none declaration.body
        finishFunction) fun last => (declaration.params.map fun param => param.name.name).Nodup ∧
          AdmitsAll (signature declaration).result false (top :: outer) (paramScope declaration)
            declaration.body last := by
    intro top scope
    refine ((@spillHead_extends (top :: outer) scope _ annotated ⟨parent :: contexts, idle, _⟩).bind
      fun spilled _ _ => (lowerStmts_checks declaration.body ⟨parent :: contexts, idle, _⟩ scope
        (top :: outer) spilled none).quietly fun _ => Quiet.finishFunction).congr fun last => ?_
    constructor
    · rintro ⟨_, ⟨distinct, rfl⟩, admits⟩
      exact ⟨distinct, admits⟩
    · rintro ⟨distinct, admits⟩
      exact ⟨_, ⟨distinct, rfl⟩, admits⟩
  have whole : Decides (State.Rests (parent :: contexts) idle (own :: outer))
      (lowerFunction parent prologue (headOf declaration)) _ _ :=
    beginFunction_then ((lowerStmts_checks prologue ⟨contexts, idle, _⟩ parent outer own none).bind
      fun top _ _ => (@openScope_tests _ ⟨contexts, idle, _⟩ (top :: outer) parent _ _ _ _
        (inner top)).extends_)
  refine whole.convert ?_ ?_
  · rintro _ ⟨_, admits, ⟨last, distinct, body⟩, rfl⟩
    exact ⟨_, ⟨admits, distinct, last, body⟩, fun _ _ sees => ⟨_, sees⟩⟩
  · rintro top ⟨admits, distinct, last, body⟩
    exact ⟨top, ⟨top, admits, ⟨last, distinct, body⟩, rfl⟩, fun _ _ sees => ⟨_, sees⟩⟩

/-- A function that has no prologue, inside the scope of the program. -/
theorem lowerPlain_decides (annotated : Annotated declaration) :
    Decides (State.Rests [ScopeTable.root] idle [own])
      (lowerFunction ScopeTable.root [] (headOf declaration))
      (fun _ : Unit => AdmitsFunction [own] declaration)
      fun _ _ last => last.Rests [ScopeTable.root] idle [own] := by
  refine (lowerFunction_decides annotated).convert ?_ ?_
  · rintro top ⟨admits, function⟩
    obtain rfl := admitsAll_nil_iff.mp admits
    exact ⟨(), function, fun _ _ rests => rests⟩
  · rintro _ function
    exact ⟨own, ⟨.nil, function⟩, fun _ _ rests => rests⟩

/-- The statements at top level as a function of their own. -/
theorem lowerTopLevel_decides {name : Bytes} {statements : List Stmt} :
    Decides (State.Rests (context :: contexts) idle (own :: outer))
      (lowerTopLevel context name statements) (AdmitsAll .int false outer own statements)
      fun top _ last => last.Rests (context :: contexts) idle (top :: outer) := by
  have whole : Decides (State.Rests (context :: contexts) idle (own :: outer))
      (lowerTopLevel context name statements) _ _ :=
    beginFunction_then ((lowerStmts_checks statements ⟨contexts, idle, .int⟩ context outer own
      none).quietly fun _ => Quiet.finishFunction)
  exact whole.convert (fun top admits => ⟨top, admits, fun _ _ sees => ⟨_, sees⟩⟩)
    fun top admits => ⟨top, admits, fun _ _ sees => ⟨_, sees⟩⟩

end Functions

section Declarations

variable {scene : Scene}

theorem valueTypes_gives {params : List Param} :
    Gives scene env (params.mapM fun param : Param => do
      return (param.name.name, ← valueType context param.type))
      (∀ param ∈ params, ∃ type, NamesValue param.type type)
      (params.map fun param => (param.name.name, namedType param.type)) := by
  induction params with
  | nil => exact (Gives.pure []).congr fun _ => by simp
  | cons param params ih =>
      have first : Gives scene env (do
          return (param.name.name, ← valueType context param.type))
          (∃ type, NamesValue param.type type) (param.name.name, namedType param.type) :=
        valueType_gives.map fun type => (param.name.name, type)
      rw [List.mapM_cons]
      exact (first.then_ fun _ => ih.map fun others =>
        (param.name.name, namedType param.type) :: others).congr fun _ => by simp

theorem resultOf_gives {written : Option Identifier} :
    Gives scene env (match written with
      | some identifier => resultType context identifier
      | none => pure .void) (∀ identifier ∈ written, (BasicType.ofName? identifier.name).isSome)
      ((written.map namedType).getD .void) := by
  cases written with
  | none => exact (Gives.pure BasicType.void).congr fun _ => by simp
  | some identifier => exact resultType_gives.congr fun _ => by simp

/-- The symbol of a function is declared exactly if its name is new. -/
theorem declareSymbol_decides {written : Signature} {value : α} {result : BasicType}
    (proper : Proper (.function written)) :
    Decides (State.Sees ⟨[ScopeTable.root], idle, result⟩ [own]) (do
      let _ ← onTable ScopeTable.root fun table =>
        table.declare ScopeTable.root (functionSymbol declaration written)
      return value)
      (fun _ : Unit => declaration.name.name ∉ own.names)
      fun _ found last => found = value ∧ last.Sees ⟨[ScopeTable.root], idle, result⟩
        [own ++ [(declaration.name.name, Denoted.function written)]] := by
  have declared : ∀ {state : State} {table : ScopeTable} {owned : Symbol},
      state.Sees ⟨[ScopeTable.root], idle, result⟩ [own] →
      state.table.declare ScopeTable.root (functionSymbol declaration written) =
        .ok (owned, table) →
      (state.withTable table).Sees ⟨[ScopeTable.root], idle, result⟩
        [own ++ [(declaration.name.name, Denoted.function written)]] := by
    intro state table owned sees declares
    have sees : state.Sees (Scene.inner ⟨[], idle, result⟩ ScopeTable.root) [own] := sees
    have both : Declares state (state.withTable table) ScopeTable.root
          (functionSymbol declaration written) owned ∧
        (state.withTable table).meaning owned = .function written :=
      Declares.of_signature sees.inside rfl rfl declares rfl
    obtain ⟨isDeclared, means⟩ := both
    exact sees.declare isDeclared (by rw [means]; rfl) proper rfl
  constructor
  · intro state last found sees run
    obtain ⟨owned, middle, declaring, finished⟩ := bind_ok.mp run
    obtain ⟨-, table, declares, rfl⟩ := onTable_ok.mp declaring
    obtain ⟨rfl, rfl⟩ := Prod.mk.inj (pure_ok.mp finished)
    have absent := (ScopeTable.declare_ok declares).1
    exact ⟨(), (@State.Sees.local?_eq_none_iff ⟨[], idle, result⟩ _ _ _ _ sees _).mp absent, rfl,
      declared sees declares⟩
  · intro state _ sees fresh
    obtain ⟨owned, table, declares⟩ := @declare_of_absent ScopeTable.root state.table
      (functionSymbol declaration written)
      ((@State.Sees.local?_eq_none_iff ⟨[], idle, result⟩ _ _ _ _ sees _).mpr fresh)
    have inside := @State.Sees.inside ⟨[], idle, result⟩ _ _ _ sees
    exact ⟨value, state.withTable table,
      bind_ok.mpr ⟨owned, _, onTable_ok.mpr ⟨inside, table, declares,
      rfl⟩, pure_ok.mpr rfl⟩, rfl, declared sees declares⟩

theorem proper_signature (annotated : Annotated declaration) :
    Proper (.function (signature declaration)) := by
  refine ⟨fun type member => ?_, ?_⟩
  · obtain ⟨param, there, rfl⟩ := List.mem_map.mp member
    exact isValue_namedType annotated param there
  · rw [signature]
    cases written : declaration.result with
    | none =>
        intro impossible
        cases impossible
    | some identifier =>
        obtain ⟨type, named⟩ := Option.isSome_iff_exists.mp (annotated.result identifier written)
        rw [Option.map_some, Option.getD_some, namedType, named, Option.getD_some]
        exact ofName?_ne_invalid named

/-- A function is declared exactly if the types in its head exist and its name is new. -/
theorem declareFunction_decides {result : BasicType} :
    Decides (State.Sees ⟨[ScopeTable.root], idle, result⟩ [own]) (declareFunction declaration)
      (fun _ : Unit => Annotated declaration ∧ declaration.name.name ∉ own.names)
      fun _ found last => found = headOf declaration ∧
        last.Sees ⟨[ScopeTable.root], idle, result⟩
          [own ++ [(declaration.name.name, Denoted.function (signature declaration))]] := by
  have types : (declaration.params.map fun param => (param.name.name, namedType param.type)).map
      Prod.snd = (signature declaration).params := by
    rw [List.map_map]
    rfl
  have parts : declareFunction declaration = (declaration.params.mapM fun param : Param => do
      return (param.name.name, ← valueType ScopeTable.root param.type)) >>= fun params =>
      (match declaration.result with
        | some identifier => resultType ScopeTable.root identifier
        | none => pure .void) >>= fun result => (do
      let _ ← onTable ScopeTable.root fun table => table.declare ScopeTable.root
        (functionSymbol declaration { params := params.map Prod.snd, result })
      return ⟨declaration, Function.ofSignature declaration.name.name params result⟩) := by
    unfold declareFunction
    cases declaration.result <;> rfl
  rw [parts]
  have symbol (annotated : Annotated declaration) :
      Decides (State.Sees ⟨[ScopeTable.root], idle, result⟩ [own]) (do
        let _ ← onTable ScopeTable.root fun table =>
          table.declare ScopeTable.root (functionSymbol declaration
          { params := (declaration.params.map fun param =>
            (param.name.name, namedType param.type)).map
              Prod.snd
            result := (signature declaration).result })
        return headOf declaration) (fun _ : Unit => declaration.name.name ∉ own.names)
        fun _ found last => found = headOf declaration ∧
          last.Sees ⟨[ScopeTable.root], idle, result⟩
            [own ++ [(declaration.name.name, Denoted.function (signature declaration))]] := by
    rw [types]
    exact declareSymbol_decides (proper_signature annotated)
  refine Decides.congr (valueTypes_gives.then_ fun params => resultOf_gives.then_ fun named =>
    symbol ⟨params, named⟩) fun _ => ?_
  constructor
  · rintro ⟨params, named, fresh⟩
    exact ⟨⟨params, named⟩, fresh⟩
  · rintro ⟨annotated, fresh⟩
    exact ⟨annotated.params, annotated.result, fresh⟩

/-- All functions are declared exactly if the types in their heads exist and their names are new and
different. -/
theorem declareFunctions_decides {result : BasicType} {declarations : List FunctionDecl} :
    Decides (State.Sees ⟨[ScopeTable.root], idle, result⟩ [own]) (declarations.mapM declareFunction)
      (fun _ : Unit => (∀ declaration ∈ declarations, Annotated declaration) ∧
        (declarations.map fun declaration => declaration.name.name).Nodup ∧
          ∀ declaration ∈ declarations, declaration.name.name ∉ own.names)
      fun _ found last => found = declarations.map headOf ∧
        last.Sees ⟨[ScopeTable.root], idle, result⟩ [own ++ declarations.map fun declaration =>
          (declaration.name.name, Denoted.function (signature declaration))] := by
  induction declarations generalizing own with
  | nil =>
      rw [List.mapM_nil]
      refine (Gives.pure []).convert (fun _ _ => ⟨(), by simp, ?_⟩) fun _ _ => ⟨(), trivial, ?_⟩ <;>
      · rintro _ last ⟨rfl, sees⟩
        exact ⟨rfl, (List.append_nil own).symm ▸ sees⟩
  | cons declaration declarations ih =>
      rw [List.mapM_cons]
      have names :
        Scope.names (own ++ [(declaration.name.name, Denoted.function (signature declaration))]) =
          own.names ++ [declaration.name.name] := List.map_append
      rw [List.map_cons (f := fun declaration : FunctionDecl => (declaration.name.name,
        Denoted.function (signature declaration))), List.append_cons]
      refine (declareFunction_decides.known fun _ => ih.known fun _ =>
        Gives.pure (headOf declaration :: declarations.map headOf)).congr fun _ => ?_
      simp only [names, List.forall_mem_cons, List.map_cons, List.nodup_cons, List.mem_map,
        List.mem_append,
        List.mem_singleton, not_or, not_exists, not_and]
      constructor
      · rintro ⟨⟨annotated, fresh⟩, ⟨others, distinct, news⟩, -⟩
        exact ⟨⟨annotated, others⟩, ⟨fun other member => (news other member).2, distinct⟩, fresh,
          fun other member => (news other member).1⟩
      · rintro ⟨⟨annotated, others⟩, ⟨apart, distinct⟩, fresh, news⟩
        exact ⟨⟨annotated, fresh⟩,
          ⟨others, distinct, fun other member => ⟨news other member, apart other member⟩⟩, trivial⟩

end Declarations

section Programs

theorem Decides.still {view : State → Prop} (value : α) :
    Decides view (Pure.pure value) (fun other => other = ()) fun _ _ last => view last :=
  .pure fun _ sees => sees

/-- A decision for each item of a list, each from and to the same view. -/
theorem mapM_decides {view : State → Prop} {step : α → Build β} {rule : α → Prop} {items : List α}
    (each : ∀ item ∈ items, Decides view (step item) (fun _ : Unit => rule item) fun _ _ last =>
      view last) :
    Decides view (items.mapM step) (fun _ : Unit => ∀ item ∈ items, rule item)
      fun _ _ last => view last := by
  induction items with
  | nil =>
      rw [List.mapM_nil]
      exact (Decides.still []).congr fun _ => by simp
  | cons item items ih =>
      obtain ⟨first, others⟩ := List.forall_mem_cons.mp each
      rw [List.mapM_cons]
      refine (first.bind fun _ found _ => (ih others).bind fun _ rest _ =>
        .still (found :: rest)).congr fun _ => ?_
      simp

theorem Decides.start {before before' : State → Prop} {part : Build α} {rule : β → Prop}
    {after : β → α → State → Prop} (decides : Decides before part rule after)
    (starts : ∀ state, before' state → before state) : Decides before' part rule after :=
  ⟨fun begins => decides.sound (starts _ begins), fun begins => decides.complete (starts _ begins)⟩

/-- The bodies of functions that are not the entry function. -/
theorem lowerBodies_decides {declarations : List FunctionDecl} {step : Declared → Build Function}
    (annotated : ∀ declaration ∈ declarations, Annotated declaration)
    (plain : ∀ declaration ∈ declarations,
      step (headOf declaration) = lowerFunction ScopeTable.root [] (headOf declaration)) :
    Decides (State.Rests [ScopeTable.root] idle [own]) ((declarations.map headOf).mapM step)
      (fun _ : Unit => ∀ declaration ∈ declarations, AdmitsFunction [own] declaration)
      fun _ _ last => last.Rests [ScopeTable.root] idle [own] := by
  have each : ∀ item ∈ declarations.map headOf, Decides (State.Rests [ScopeTable.root] idle [own])
      (step item) (fun _ : Unit => AdmitsFunction [own] item.declaration)
      fun _ _ last => last.Rests [ScopeTable.root] idle [own] := by
    intro item member
    obtain ⟨declaration, there, rfl⟩ := List.mem_map.mp member
    rw [plain declaration there]
    exact lowerPlain_decides (annotated declaration there)
  exact (mapM_decides each).congr fun _ => by simp [headOf]

/-- A scope without declarations stands aside. -/
theorem State.Sees.standAside {state : State} {result : BasicType}
    (sees : state.Sees ⟨[context, ScopeTable.root], [], result⟩ [[], own]) :
    state.Sees ⟨[ScopeTable.root], [context], result⟩ [own] := by
  have below := sees.chain.lt sees.wellScoped ScopeTable.root List.mem_cons_self
  have outside : state.Sees ⟨[ScopeTable.root], [], result⟩ [own] := State.Sees.leave sees
  cases sees.chain with
  | cons shows _ =>
      refine ⟨sees.wellScoped, outside.chain, ?_, outside.proper, sees.result_eq⟩
      intro other member
      obtain rfl := List.mem_singleton.mp member
      exact ⟨fun inside => Nat.ne_of_gt below (List.mem_singleton.mp inside), shows⟩

/-- A scope that stood aside is entered. -/
theorem State.Rests.enter {state : State} (rests : state.Rests [ScopeTable.root] [context] [own]) :
    state.Rests [context, ScopeTable.root] [] [[], own] := by
  obtain ⟨result, sees⟩ := rests
  exact ⟨result, sees.wellScoped, .cons (sees.idle context List.mem_cons_self).2 sees.chain,
    List.forall_mem_nil _, List.forall_mem_cons.mpr ⟨List.forall_mem_nil _, sees.proper⟩,
    sees.result_eq⟩

theorem State.Rests.leave {state : State} {scope : Scope}
    (rests : state.Rests (context :: contexts) idle (scope :: env)) :
    state.Rests contexts idle env := by
  obtain ⟨result, sees⟩ := rests
  exact ⟨result, State.Sees.leave sees⟩

/-- The functions of a program one of which takes the statements at top level. -/
theorem lowerWithEntry_decides {front back : List FunctionDecl} {step : Declared → Build Function}
    {statements : List Stmt}
    (annotated : ∀ other ∈ front ++ declaration :: back, Annotated other)
    (plain : ∀ other ∈ front ++ back,
      step (headOf other) = lowerFunction ScopeTable.root [] (headOf other))
    (takes : step (headOf declaration) = lowerFunction context statements (headOf declaration)) :
    Decides (State.Rests [ScopeTable.root] [context] [own])
      (((front ++ declaration :: back).map headOf).mapM step)
      (fun _ : Unit => (∀ other ∈ front ++ back, AdmitsFunction [own] other) ∧
        ∃ top, AdmitsAll (signature declaration).result false [own] [] statements top ∧
          AdmitsFunction [top, own] declaration)
      fun _ _ last => last.Rests [ScopeTable.root] [] [own] := by
  simp only [List.forall_mem_append, List.forall_mem_cons] at annotated plain
  obtain ⟨ofFront, ofEntry, ofBack⟩ := annotated
  rw [List.map_append, List.map_cons, List.mapM_append, List.mapM_cons, takes]
  have entry : Decides (State.Rests [ScopeTable.root] [context] [own])
      (lowerFunction context statements (headOf declaration)) _ _ :=
    (lowerFunction_decides ofEntry).start fun state rests => rests.enter
  have backs : Decides (State.Rests [ScopeTable.root] [] [own]) _ _ _ :=
    lowerBodies_decides ofBack plain.2
  refine ((lowerBodies_decides ofFront plain.1).bind fun _ bodies _ =>
    (entry.bind fun top body _ => (backs.start fun state rests => rests.leave).bind
      fun _ others _ =>
      .still (body :: others)).bind fun _ rest _ => .still (bodies ++ rest)).congr fun _ => ?_
  simp only [List.forall_mem_append]
  constructor
  · rintro ⟨-, fronts, -, ⟨top, admits, -, backs, -⟩, -⟩
    exact ⟨⟨fronts, backs⟩, top, admits⟩
  · rintro ⟨⟨fronts, backs⟩, top, admits⟩
    exact ⟨(), fronts, (), ⟨top, admits, (), backs, trivial⟩, trivial⟩

theorem openAside_then {kind : ScopeKind} {label : Bytes} {result : BasicType}
    {next : Context → Build γ} {rule : δ → Prop} {after : δ → γ → State → Prop}
    (decides : ∀ new, Decides (State.Rests [ScopeTable.root] [new] [own]) (next new) rule after) :
    Decides (State.Sees ⟨[ScopeTable.root], [], result⟩ [own])
      (openScope ScopeTable.root kind label >>= next) rule after := by
  have opens : ∀ {state : State}, state.Sees ⟨[ScopeTable.root], [], result⟩ [own] →
      (state.openScope ScopeTable.root kind label).Rests [ScopeTable.root]
        [state.nextContext] [own] :=
    fun sees => ⟨result, (@State.Sees.openScope ⟨[], [], result⟩ _ _ _ sees _ _).standAside⟩
  constructor
  · intro state last value sees run
    obtain ⟨new, middle, opened, run⟩ := bind_ok.mp run
    obtain ⟨rfl, rfl⟩ := Prod.mk.inj (openScope_ok.mp opened).2
    exact (decides _).sound (opens sees) run
  · intro state outcome sees applies
    have inside := @State.Sees.inside ⟨[], [], result⟩ _ _ _ sees
    obtain ⟨value, last, run, shows⟩ := (decides _).complete (opens sees) applies
    exact ⟨value, last, bind_ok.mpr ⟨_, _, openScope_ok.mpr ⟨inside, rfl⟩, run⟩, shows⟩

variable {options : EntryOptions} {stem : Bytes} {program : Program}

/-- A program with an entry function of its own. -/
theorem wellFormed_of_entry_iff {front back : List FunctionDecl}
    (listed : program.functions = front ++ declaration :: back)
    (annotated : ∀ other ∈ program.functions, Annotated other)
    (distinct : (program.functions.map fun declaration => declaration.name.name).Nodup)
    (isEntry : IsEntry options declaration) (others : ∀ other ∈ front ++ back,
      ¬ IsEntry options other) :
    WellFormed options stem program ↔
      (∀ other ∈ front ++ back, AdmitsFunction [globals program] other) ∧
        ∃ top, AdmitsAll (signature declaration).result false [globals program]
          [] program.statements top ∧ AdmitsFunction [top, globals program] declaration := by
  have members : ∀ other, other ∈ program.functions ↔ other = declaration ∨
    other ∈ front ++ back := by
    intro other
    rw [listed, List.mem_append, List.mem_append, List.mem_cons]
    exact or_left_comm
  constructor
  · intro wellFormed
    exact ⟨fun other member => wellFormed.bodies other ((members other).mpr (.inr member))
        (others other member),
      wellFormed.entry declaration ((members declaration).mpr (.inl rfl)) isEntry⟩
  · rintro ⟨bodies, entry⟩
    refine ⟨distinct, annotated, fun other member notEntry => ?_, fun other member isOther => ?_,
      fun none => absurd isEntry (none declaration ((members declaration).mpr (.inl rfl)))⟩
    · rcases (members other).mp member with rfl | member
      · exact absurd isEntry notEntry
      · exact bodies other member
    · rcases (members other).mp member with rfl | member
      · exact entry
      · exact absurd isOther (others other member)

/-- A program whose entry function is made from the statements at top level. -/
theorem wellFormed_of_topLevel_iff (annotated : ∀ other ∈ program.functions, Annotated other)
    (distinct : (program.functions.map fun declaration => declaration.name.name).Nodup)
    (none : ∀ other ∈ program.functions, ¬ IsEntry options other) :
    WellFormed options stem program ↔
      (∀ other ∈ program.functions, other.name.name ≠ synthesizedEntry stem) ∧
        (∃ top, AdmitsAll .int false [globals program] [] program.statements top) ∧
          ∀ other ∈ program.functions, AdmitsFunction [globals program] other := by
  constructor
  · intro wellFormed
    obtain ⟨free, top⟩ := wellFormed.topLevel none
    exact ⟨free, top, fun other member => wellFormed.bodies other member (none other member)⟩
  · rintro ⟨free, top, bodies⟩
    exact ⟨distinct, annotated, fun other member _ => bodies other member,
      fun other member isEntry => absurd isEntry (none other member), fun _ => ⟨free, top⟩⟩

/-- The functions of a program none of which takes the statements at top level. -/
theorem lowerSynthesized_decides {topLevel : Context} {name : Bytes}
    (annotated : ∀ other ∈ program.functions, Annotated other) :
    Decides (State.Rests [ScopeTable.root] [topLevel] [own])
      (match program.functions.find? fun declaration => declaration.name.name == name with
        | some declaration => refuse ScopeTable.root declaration.name.first (.reservedName name)
        | none => do
            let entry ← lowerTopLevel topLevel name program.statements
            let functions ← (program.functions.map headOf).mapM (lowerFunction ScopeTable.root [])
            return (name, entry :: functions))
      (fun _ : Unit => (∀ other ∈ program.functions, other.name.name ≠ name) ∧
        (∃ top, AdmitsAll .int false [own] [] program.statements top) ∧
          ∀ other ∈ program.functions, AdmitsFunction [own] other)
      fun _ _ last => last.Rests [ScopeTable.root] [] [own] := by
  cases taken : program.functions.find? fun declaration => declaration.name.name == name with
  | some declaration =>
      refine Decides.refuse.congr fun _ => ?_
      have same := List.find?_some taken
      simp only [false_iff, not_and]
      intro free
      exact absurd (eq_of_beq same) (free declaration (List.mem_of_find?_eq_some taken))
  | none =>
      have free : ∀ other ∈ program.functions, other.name.name ≠ name :=
        fun other member same => List.find?_eq_none.mp taken other member (beq_iff_eq.mpr same)
      have entry : Decides (State.Rests [ScopeTable.root] [topLevel] [own])
          (lowerTopLevel topLevel name program.statements) _ _ :=
        lowerTopLevel_decides.start fun state rests => rests.enter
      have bodies : Decides (State.Rests [ScopeTable.root] [] [own])
          ((program.functions.map headOf).mapM (lowerFunction ScopeTable.root [])) _ _ :=
        lowerBodies_decides annotated fun _ _ => rfl
      refine (entry.bind fun top entry _ => (bodies.start fun state rests => rests.leave).bind
        fun _ functions _ => .still (name, entry :: functions)).congr fun _ => ?_
      constructor
      · rintro ⟨top, admits, -, bodies, -⟩
        exact ⟨free, ⟨top, admits⟩, bodies⟩
      · rintro ⟨-, ⟨top, admits⟩, bodies⟩
        exact ⟨top, admits, (), bodies, rfl⟩

/-- Functions of different names are not the entry function together. -/
theorem not_isEntry_of_distinct {front back : List FunctionDecl}
    (listed : program.functions = front ++ declaration :: back)
    (distinct : (program.functions.map fun declaration => declaration.name.name).Nodup)
    (isEntry : IsEntry options declaration) : ∀ other ∈ front ++ back, ¬ IsEntry options other := by
  rintro other there ⟨-, same⟩
  rw [listed, List.map_append, List.map_cons, List.nodup_middle, List.nodup_cons,
    ← List.map_append] at distinct
  exact distinct.1 (List.mem_map.mpr ⟨other, there, same.trans isEntry.2.symm⟩)

/-- Lowering the items of a program decides whether it is well formed. -/
theorem lowerItems_decides {result : BasicType} :
    Decides (State.Sees ⟨[ScopeTable.root], [], result⟩ [[]]) (lowerItems options stem program)
      (fun _ : Unit => WellFormed options stem program)
      fun _ _ last => last.Rests [ScopeTable.root] [] [globals program] := by
  have entries : ∀ other : FunctionDecl, (options.policy == .auto &&
      (headOf other).declaration.name.name == options.entryName) = true ↔
        IsEntry options other := by
    intro other
    simp [IsEntry, headOf]
  have names : ([] : Scope) ++ program.functions.map (fun declaration =>
      (declaration.name.name, Denoted.function (signature declaration))) = globals program :=
    List.nil_append _
  have implied : ∀ _ : Unit, WellFormed options stem program →
      (∀ declaration ∈ program.functions, Annotated declaration) ∧
        (program.functions.map fun declaration => declaration.name.name).Nodup ∧
          ∀ declaration ∈ program.functions, declaration.name.name ∉ Scope.names [] :=
    fun _ wellFormed => ⟨wellFormed.annotated, wellFormed.distinct, fun _ _ => List.not_mem_nil⟩
  unfold lowerItems
  refine declareFunctions_decides.implied implied ?_
  rintro ⟨annotated, distinct, -⟩
  rw [names]
  refine openAside_then fun topLevel => ?_
  by_cases present : ∃ declaration ∈ program.functions, IsEntry options declaration
  · obtain ⟨declaration, member, isEntry⟩ := present
    obtain ⟨front, back, listed⟩ := List.append_of_mem member
    have others := not_isEntry_of_distinct listed distinct isEntry
    rw [if_pos (List.any_eq_true.mpr ⟨headOf declaration, List.mem_map_of_mem member,
      (entries declaration).mpr isEntry⟩)]
    have whole : Decides (State.Rests [ScopeTable.root] [topLevel] [globals program]) _ _ _ :=
      @lowerWithEntry_decides _ _ _ front back (fun item =>
        if options.policy == .auto && item.declaration.name.name == options.entryName then
          lowerFunction topLevel program.statements item
        else lowerFunction ScopeTable.root [] item) program.statements (listed ▸ annotated)
        (fun other there => if_neg fun holds => others other there ((entries other).mp holds))
        (if_pos ((entries declaration).mpr isEntry))
    rw [← listed] at whole
    refine (whole.bind fun _ functions _ => .still (options.entryName, functions)).congr fun _ => ?_
    rw [wellFormed_of_entry_iff listed annotated distinct isEntry others]
    simp
  · have none : ∀ other ∈ program.functions, ¬ IsEntry options other :=
      fun other member isEntry => present ⟨other, member, isEntry⟩
    have absent : ¬ (program.functions.map headOf).any (fun item =>
        options.policy == .auto && item.declaration.name.name == options.entryName) = true := by
      intro found
      obtain ⟨item, member, holds⟩ := List.any_eq_true.mp found
      obtain ⟨other, there, rfl⟩ := List.mem_map.mp member
      exact none other there ((entries other).mp holds)
    rw [if_neg absent]
    exact (lowerSynthesized_decides annotated).congr fun _ =>
      (wellFormed_of_topLevel_iff annotated distinct none).symm

/-- Lowering starts with nothing in sight. -/
theorem sees_ofFile {file : SourceFile} {state : State} (tables : state.table = .ofFile file) :
    state.Sees ⟨[ScopeTable.root], [], state.function.result⟩ [[]] where
  wellScoped := (declaring_ofFile tables).wellScoped
  chain := .cons ⟨_, by rw [tables]; rfl, rfl, rfl⟩ .nil
  idle := List.forall_mem_nil _
  proper := List.forall_mem_cons.mpr ⟨List.forall_mem_nil _, List.forall_mem_nil _⟩
  result_eq := rfl

/-- Lowering the items of a program succeeds exactly if the program is well formed. -/
theorem lowerItems_ok_iff {stem : Bytes} {start : State}
    (starts : start.Sees ⟨[ScopeTable.root], [], start.function.result⟩ [[]]) :
    (∃ outcome, lowerItems options stem program start = .ok outcome) ↔
      WellFormed options stem program := by
  constructor
  · rintro ⟨⟨value, last⟩, lowered⟩
    obtain ⟨-, wellFormed, -⟩ := lowerItems_decides.sound starts lowered
    exact wellFormed
  · intro wellFormed
    obtain ⟨value, last, lowered, -⟩ :=
      @Decides.complete _ _ _ _ _ _ lowerItems_decides _ () starts wellFormed
    exact ⟨_, lowered⟩

/-- There is a module exactly if the items of the program can be lowered. -/
theorem exists_built_iff {file : SourceFile} :
    (∃ built, build options file program = .ok built) ↔
      ∃ outcome, lowerItems options file.stem program
        { table := .ofFile file, function := .ofSignature [] [] .void,
          current := ⟨Function.entry, []⟩ } = .ok outcome := by
  unfold build
  simp only [StateT.run, bind, Except.bind]
  constructor
  · rintro ⟨built, run⟩
    split at run
    · cases run
    · rename_i outcome lowered
      exact ⟨outcome, lowered⟩
  · rintro ⟨outcome, lowered⟩
    rw [lowered]
    exact ⟨_, rfl⟩

/-- **A program is lowered exactly if it is well formed.** -/
theorem build_ok_iff {file : SourceFile} :
    (∃ built, build options file program = .ok built) ↔ WellFormed options file.stem program :=
  exists_built_iff.trans (lowerItems_ok_iff (sees_ofFile rfl))

end Programs

end ScriptCompiler.Lowering
