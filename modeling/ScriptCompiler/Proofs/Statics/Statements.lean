import ScriptCompiler.Proofs.Statics.Expressions

/-!
# Lowering decides whether statements are well formed

A statement is lowered in a context exactly if it is well formed in the scope of the context, and
the context declares afterwards what the rules say.
-/

namespace ScriptCompiler.Lowering

open IR Build Statics Semantics

variable {α β γ δ : Type} {scene : Scene} {env outer : Env} {own : Scope} {state : State}
  {context : Context}

section Parts

/-- A part of lowering that decides what the current scope declares afterwards. -/
abbrev Extends (scene : Scene) (outer : Env) (own : Scope) (part : Build α) (rule : Scope → Prop) :
    Prop :=
  Decides (State.Sees scene (own :: outer)) part rule fun last _ state =>
    state.Sees scene (last :: outer)

theorem Tests.extends_ {part : Build α} {test : Prop}
    (tests : Tests scene (own :: outer) part test) :
    Extends scene outer own part fun last => test ∧ last = own :=
  tests.convert (fun _ holds => ⟨own, ⟨holds, rfl⟩, fun _ _ sees => sees⟩) fun _ applies =>
    ⟨(), applies.1, fun _ _ sees => applies.2 ▸ sees⟩

/-- What is quiet behind a decision leaves it. -/
theorem Decides.quietly {before : State → Prop} {part : Build α} {rule : β → Prop} {view : β → Env}
    {next : α → Build γ} {yields : γ → Prop}
    (decides : Decides before part rule fun outcome _ last => last.Sees scene (view outcome))
    (quiet : ∀ value, Quiet (next value) yields) :
    Decides before (part >>= next) rule fun outcome _ last => last.Sees scene (view outcome) where
  sound := by
    intro state last final starts run
    obtain ⟨value, middle, partRun, run⟩ := bind_ok.mp run
    obtain ⟨outcome, applies, sees⟩ := decides.sound starts partRun
    obtain ⟨_, _, quietRun, -, tables, slots, results⟩ := quiet value middle
    obtain ⟨rfl, rfl⟩ := Prod.mk.inj (Except.ok.inj (quietRun.symm.trans run))
    exact ⟨outcome, applies, sees.congr tables slots results⟩
  complete := by
    intro state outcome starts applies
    obtain ⟨value, middle, partRun, sees⟩ := decides.complete starts applies
    obtain ⟨final, last, quietRun, -, tables, slots, results⟩ := quiet value middle
    exact ⟨final, last, bind_ok.mpr ⟨value, middle, partRun, quietRun⟩,
      sees.congr tables slots results⟩

theorem get_then {next : State → Build γ} {rule : δ → Prop} {after : δ → γ → State → Prop}
    (decides : ∀ read : State, read.function.result = scene.result →
      Decides (State.Sees scene env) (next read) rule after) :
    Decides (State.Sees scene env) (get >>= next) rule after where
  sound := by
    intro state last value sees run
    obtain ⟨read, middle, reads, run⟩ := bind_ok.mp run
    obtain ⟨rfl, rfl⟩ := Prod.mk.inj (get_ok.mp reads)
    exact (decides _ sees.result_eq).sound sees run
  complete := by
    intro state outcome sees applies
    obtain ⟨value, last, run, shows⟩ := (decides _ sees.result_eq).complete sees applies
    exact ⟨value, last, bind_ok.mpr ⟨state, state, get_ok.mpr rfl, run⟩, shows⟩

/-- What is done in a scope of its own is a check for what is around it. -/
theorem openScope_tests {kind : ScopeKind} {label : Bytes} {body : Context → Build α}
    {rule : Scope → Prop}
    (inner : ∀ new, Extends ((scene.inner context).inner new) env [] (body new) rule) :
    Tests (scene.inner context) env (openScope context kind label >>= body)
      (∃ last, rule last) where
  sound := by
    intro state last _ sees run
    obtain ⟨new, middle, opened, run⟩ := bind_ok.mp run
    obtain ⟨rfl, rfl⟩ := Prod.mk.inj (openScope_ok.mp opened).2
    obtain ⟨scope, applies, sees⟩ := (inner _).sound sees.openScope run
    exact ⟨(), ⟨scope, applies⟩, sees.leave⟩
  complete := by
    rintro state _ sees ⟨scope, applies⟩
    have inside := sees.inside
    obtain ⟨value, last, run, sees⟩ := (inner _).complete sees.openScope applies
    exact ⟨value, last, bind_ok.mpr ⟨_, _, openScope_ok.mpr ⟨inside, rfl⟩, run⟩, sees.leave⟩

theorem inScope_tests {kind : ScopeKind} {label : Bytes} {body : Context → Build Unit}
    {rule : Scope → Prop}
    (inner : ∀ new, Extends ((scene.inner context).inner new) env [] (body new) rule) :
    Tests (scene.inner context) env (inScope context kind label body) (∃ last, rule last) :=
  openScope_tests inner

end Parts

section Declarations

theorem declare_of_absent {table : ScopeTable} {symbol : Symbol}
    (absent : table.local? context symbol.name = none) :
    ∃ owned table', table.declare context symbol = .ok (owned, table') := by
  simp [ScopeTable.declare, absent]

/-- A symbol is declared and given a slot exactly if its scope does not declare its name yet. -/
theorem declare_extends {symbol : Symbol} {type : BasicType} {initial : Build Value}
    {yields : Value → Prop} (assignable : symbol.isAssignable = true)
    (plain : symbol.type = some (.basic type)) (isValue : type.IsValue)
    (quiet : Quiet initial yields) :
    Extends (scene.inner context) outer own (do
      let owned ← onTable context fun table => table.declare context symbol
      let value ← initial
      holdValue owned type value)
      fun last => symbol.name ∉ own.names ∧
        last = own ++ [(symbol.name, Denoted.variable type)] := by
  -- What is seen behind the declaration, whatever the value is.
  have declared : ∀ {state : State} {table : ScopeTable} {owned : Symbol},
      state.Sees (scene.inner context) (own :: outer) →
      state.table.declare context symbol = .ok (owned, table) →
      ∀ {middle : State} {value : Value}, middle.table = table → middle.slots = state.slots →
        middle.function.result = state.function.result →
        (middle.hold owned type value).Sees (scene.inner context)
          ((own ++ [(symbol.name, Denoted.variable type)]) :: outer) := by
    rintro state _ owned sees declares middle value rfl slots results
    obtain ⟨isDeclared, means⟩ :=
      @Declares.of_slot state (middle.hold owned type value) context symbol
      owned ⟨middle.nextId, owned.name, type⟩ sees.inside assignable ⟨type, plain⟩ declares
      (by rw [← slots]; rfl)
    refine sees.declare isDeclared (by rw [means]; rfl) isValue (Eq.trans ?_ results)
    rfl
  constructor
  · intro state last _ sees run
    obtain ⟨owned, first, declaring, run⟩ := bind_ok.mp run
    obtain ⟨-, table, declares, rfl⟩ := onTable_ok.mp declaring
    obtain ⟨value, middle, initialRun, run⟩ := bind_ok.mp run
    obtain ⟨-, rfl⟩ := Prod.mk.inj (holdValue_ok.mp run)
    obtain ⟨value', middle', initialRun', -, tables, slots, results⟩ :=
      quiet (state.withTable table)
    obtain ⟨rfl, rfl⟩ := Prod.mk.inj (Except.ok.inj (initialRun.symm.trans initialRun'))
    exact ⟨_, ⟨sees.local?_eq_none_iff.mp (ScopeTable.declare_ok declares).1, rfl⟩,
      declared sees declares tables slots results⟩
  · rintro state _ sees ⟨absent, rfl⟩
    obtain ⟨owned, table, declares⟩ := declare_of_absent (sees.local?_eq_none_iff.mpr absent)
    obtain ⟨value, middle, initialRun, -, tables, slots, results⟩ := quiet (state.withTable table)
    exact ⟨(), _, bind_ok.mpr ⟨owned, _, onTable_ok.mpr ⟨sees.inside, table, declares, rfl⟩,
      bind_ok.mpr ⟨value, middle, initialRun, holdValue_ok.mpr rfl⟩⟩,
      declared sees declares tables slots results⟩

/-- An annotation that names a type of values. -/
def NamesValue (identifier : Identifier) (type : BasicType) : Prop :=
  BasicType.ofName? identifier.name = some type ∧ type ≠ .void

theorem NamesValue.namedType_eq {identifier : Identifier} {type : BasicType}
    (named : NamesValue identifier type) : namedType identifier = type := by
  rw [namedType, named.1, Option.getD_some]

theorem resultType_gives {identifier : Identifier} :
    Gives scene env (resultType context identifier) (BasicType.ofName? identifier.name).isSome
      (namedType identifier) := by
  unfold resultType namedType
  cases BasicType.ofName? identifier.name with
  | none => exact Decides.refuse.congr fun _ => by simp
  | some type => exact (Gives.pure type).congr fun _ => by simp

theorem valueType_gives {identifier : Identifier} :
    Gives scene env (valueType context identifier) (∃ type, NamesValue identifier type)
      (namedType identifier) := by
  refine (resultType_gives.then_ fun _ => Decides.guard fun _ =>
    Gives.pure (namedType identifier)).congr fun _ => ?_
  unfold namedType NamesValue
  cases BasicType.ofName? identifier.name with
  | none => simp
  | some type => simp

theorem valueType_then {identifier : Identifier} {next : BasicType → Build γ}
    {rule : BasicType → δ → Prop} {after : δ → γ → State → Prop}
    (decides : ∀ type, NamesValue identifier type →
      Decides (State.Sees scene env) (next type) (rule type) after) :
    Decides (State.Sees scene env) (valueType context identifier >>= next)
      (fun outcome => ∃ type, NamesValue identifier type ∧ rule type outcome) after := by
  refine (valueType_gives.then_ fun known => decides _ ?_).congr fun outcome => ?_
  · obtain ⟨type, named⟩ := known
    exact named.namedType_eq.symm ▸ named
  · constructor
    · rintro ⟨⟨type, named⟩, applies⟩
      exact ⟨type, named, named.namedType_eq ▸ applies⟩
    · rintro ⟨type, named, applies⟩
      exact ⟨⟨type, named⟩, named.namedType_eq.symm ▸ applies⟩

theorem lowerInitial_types {name : Bytes} {declared : Option BasicType} {expression : Expr}
    (valid : ∀ type ∈ declared, type ≠ .invalid) :
    Types (scene.inner context) env (lowerInitial context name declared expression) fun type =>
      HasType env expression type ∧ type ≠ .void ∧ ∀ wanted ∈ declared, type = wanted := by
  unfold lowerInitial
  have given : ∀ value : Value, Types (scene.inner context) env (pure value)
      fun type => type = value.type := fun value => Quiet.types (.pure rfl)
  cases declared with
  | none =>
      refine (lowerExpr_types expression).then_
        (fun value _ => Decides.guard fun _ => given value) ?_ ?_
      · rintro value _ typed ⟨notVoid, rfl⟩
        exact ⟨typed, by simpa using notVoid, by simp⟩
      · rintro type ⟨typed, notVoid, -⟩
        refine ⟨type, typed, ?_⟩
        rintro value rfl
        exact ⟨by simpa using notVoid, rfl⟩
  | some wanted =>
      refine (lowerExpr_types expression).then_ (fun value _ => Decides.guard fun _ =>
        Decides.guard fun _ => given value) ?_ ?_
      · rintro value _ typed ⟨notVoid, fits, rfl⟩
        simp only [Bool.not_eq_true', Bool.not_eq_false, assignable_iff] at fits
        exact ⟨typed, fits.2.1, by simpa using fits.1⟩
      · rintro type ⟨typed, notVoid, fits⟩
        obtain rfl := fits wanted rfl
        refine ⟨type, typed, ?_⟩
        rintro value rfl
        have fits := assignable_iff.mpr ⟨rfl, notVoid, valid value.type rfl⟩
        exact ⟨by simpa using notVoid, by simp [fits], rfl⟩

/-- What stands behind the type and the initial value of a variable. -/
theorem finishVariable_extends {name : Identifier} {type : BasicType} {initial : Option Value}
    (isValue : type.IsValue) :
    Extends (scene.inner context) outer own (do
      let symbol ← onTable context fun table => table.declare context
        { name := name.name, kind := .variable, type := some (.basic type), position := name.first }
      let value ← initialValue type initial
      holdValue symbol type value)
      fun last => name.name ∉ own.names ∧ last = own ++ [(name.name, Denoted.variable type)] := by
  have quiet : Quiet (initialValue type initial) fun _ => True := by
    cases initial with
    | none => exact (Quiet.zeroValue isValue).mono fun _ _ => trivial
    | some value => exact .pure trivial
  exact declare_extends rfl rfl isValue quiet

theorem lowerVariable_extends {declaration : VarDecl} :
    Extends (scene.inner context) outer own (lowerVariable context declaration) fun last =>
      ∃ type, Introduces (own :: outer) declaration type ∧ declaration.name.name ∉ own.names ∧
        last = own ++ [(declaration.name.name, Denoted.variable type)] := by
  refine .of_before (fun _ sees _ _ => sees.proper_of_find?) fun
    (proper : ∀ name denoted, Env.find? (own :: outer) name = some denoted →
      Proper denoted) => ?_
  obtain ⟨first, name, written, initial, semicolon⟩ := declaration
  cases written with
  | none =>
      cases initial with
      | none =>
          simp only [lowerVariable, Option.mapM_none, pure_bind]
          refine Decides.refuse.congr fun last => ?_
          simp only [false_iff, not_exists]
          rintro type ⟨⟨-, -, -, given⟩, -⟩
          simp at given
      | some expression =>
          simp only [lowerVariable, Option.mapM_none, Option.mapM_some, pure_bind, bind_map_left,
            Option.none_or, Option.map_some]
          refine (lowerInitial_types (by simp)).then_ (fun value typed =>
            finishVariable_extends ⟨typed.2.1, ne_invalid_of_hasType proper typed.1⟩) ?_ ?_
          · rintro value last ⟨typed, notVoid, -⟩ ⟨fresh, rfl⟩
            exact ⟨value.type, ⟨by simp, by simpa using typed, notVoid, .inr rfl⟩, fresh, rfl⟩
          · rintro last ⟨type, ⟨-, typed, notVoid, -⟩, fresh, rfl⟩
            refine ⟨type, ⟨typed expression rfl, notVoid, by simp⟩, ?_⟩
            rintro value rfl
            exact ⟨fresh, rfl⟩
  | some identifier =>
      cases initial with
      | none =>
          simp only [lowerVariable, Option.mapM_none, Option.mapM_some, pure_bind, bind_map_left,
            Option.some_or]
          refine (valueType_then fun type named =>
            finishVariable_extends ⟨named.2, ofName?_ne_invalid named.1⟩).congr fun last => ?_
          constructor
          · rintro ⟨type, named, fresh, rfl⟩
            exact ⟨type, ⟨by simpa using named.1, by simp, named.2, .inl rfl⟩, fresh, rfl⟩
          · rintro ⟨type, ⟨named, -, notVoid, -⟩, fresh, rfl⟩
            exact ⟨type, ⟨named identifier rfl, notVoid⟩, fresh, rfl⟩
      | some expression =>
          simp only [lowerVariable, Option.mapM_some, bind_map_left, Option.some_or]
          have rest : ∀ type, NamesValue identifier type →
              Extends (scene.inner context) outer own (do
                let value ← lowerInitial context name.name (some type) expression
                let symbol ← onTable context fun table => table.declare context
                  { name := name.name, kind := .variable, type := some (.basic type),
                    position := name.first }
                let value ← initialValue type (some value)
                holdValue symbol type value) fun last =>
                HasType (own :: outer) expression type ∧ name.name ∉ own.names ∧
                  last = own ++ [(name.name, Denoted.variable type)] := by
            intro type named
            have valid := ofName?_ne_invalid named.1
            refine (lowerInitial_types (by simpa using valid)).then_ (fun value typed =>
              finishVariable_extends ⟨named.2, valid⟩) ?_ ?_
            · rintro value last ⟨typed, -, same⟩ ⟨fresh, rfl⟩
              exact ⟨same type rfl ▸ typed, fresh, rfl⟩
            · rintro last ⟨typed, fresh, rfl⟩
              exact ⟨type, ⟨typed, named.2, by simp⟩, fun _ _ => ⟨fresh, rfl⟩⟩
          refine (valueType_then rest).congr fun last => ?_
          constructor
          · rintro ⟨type, named, typed, fresh, rfl⟩
            exact ⟨type, ⟨by simpa using named.1, by simpa using typed, named.2, .inl rfl⟩,
              fresh, rfl⟩
          · rintro ⟨type, ⟨named, typed, notVoid, -⟩, fresh, rfl⟩
            exact ⟨type, ⟨named identifier rfl, notVoid⟩, typed expression rfl, fresh, rfl⟩

end Declarations

section Control

theorem lowerCondition_types {owner : Bytes} {expression : Expr} :
    Types (scene.inner context) env (lowerCondition context owner expression) fun type =>
      type = .bool ∧ HasType env expression .bool := by
  have given : ∀ value : Value, Types (scene.inner context) env (pure value)
      fun type => type = value.type := fun value => Quiet.types (.pure rfl)
  unfold lowerCondition
  refine (lowerExpr_types expression).then_
    (fun value _ => Decides.guard fun _ => given value) ?_ ?_
  · rintro value _ typed ⟨truth, rfl⟩
    have truth : value.type = .bool := by simpa using truth
    exact ⟨truth, truth ▸ typed⟩
  · rintro _ ⟨rfl, typed⟩
    exact ⟨.bool, typed, fun value truth => ⟨by simp [truth], truth.symm⟩⟩

/-- What follows a condition does not depend on it. -/
theorem lowerCondition_then {owner : Bytes} {expression : Expr} {next : Value → Build γ}
    {rule : δ → Prop} {after : δ → γ → State → Prop}
    (decides : ∀ value, Decides (State.Sees (scene.inner context) env) (next value) rule after) :
    Decides (State.Sees (scene.inner context) env)
      (lowerCondition context owner expression >>= next)
      (fun outcome => HasType env expression .bool ∧ rule outcome) after := by
  refine lowerCondition_types.then_ (fun value _ => decides value) ?_ ?_
  · rintro value outcome ⟨-, typed⟩ applies
    exact ⟨typed, applies⟩
  · rintro outcome ⟨typed, applies⟩
    exact ⟨.bool, ⟨rfl, typed⟩, fun _ _ => applies⟩

/-- An expression whose value is not used. -/
theorem lowerExpr_tests {expression : Expr} :
    Tests (scene.inner context) env (lowerExpr context expression)
      (∃ type, HasType env expression type) :=
  (lowerExpr_types expression).convert
    (fun type typed => ⟨(), ⟨type, typed⟩, fun _ _ shows => shows.2⟩)
    fun _ applies => applies.elim fun type typed => ⟨type, typed, fun _ _ shows => shows.2⟩

theorem lowerLeave_tests {first : Position} :
    Tests (scene.inner context) env (lowerReturn context first none) (scene.result = .void) := by
  refine get_then fun read result => ?_
  refine (Decides.guard fun _ => (Quiet.emit (.ret none)).tests).congr fun _ => ?_
  simp [result, Scene.inner]

theorem lowerResult_tests {first : Position} {expression : Expr} :
    Tests (scene.inner context) env (lowerReturn context first (some expression))
      (HasType env expression scene.result ∧ scene.result ≠ .void) := by
  refine .of_before (fun _ sees _ _ => sees.proper_of_find?) fun
    (proper : ∀ name denoted, env.find? name = some denoted → Proper denoted) => ?_
  have checked : ∀ value : Value, Tests (scene.inner context) env (do
      let function := (← get).function
      if function.result == .void then
        refuse context expression.first (.unwantedResult function.name)
      if !value.type.assignableTo function.result then
        refuse context expression.first (.resultType function.name value.type function.result)
      emit (.ret (some value)))
      (scene.result ≠ .void ∧ value.type.assignableTo scene.result = true) := by
    intro value
    refine get_then fun read result => ?_
    refine (Decides.guard fun _ => Decides.guard fun _ =>
      (Quiet.emit (.ret (some value))).tests).congr
      fun _ => ?_
    simp [result, Scene.inner]
  refine (lowerExpr_types expression).then_ (fun value _ => checked value) ?_ ?_
  · rintro value _ typed ⟨notVoid, fits⟩
    exact ⟨(assignable_iff.mp fits).1 ▸ typed, notVoid⟩
  · rintro _ ⟨typed, notVoid⟩
    refine ⟨scene.result, typed, fun value same => ⟨notVoid, assignable_iff.mpr ⟨same, ?_⟩⟩⟩
    rw [same]
    exact ⟨notVoid, ne_invalid_of_hasType proper typed⟩

theorem lowerWhen_tests {condition : Value} {consequent : Build Unit} {test : Prop}
    (tests : Tests scene env consequent test) :
    Tests scene env (lowerWhen condition consequent) test := by
  refine (Quiet.newBlock _).then_ fun thenBlock _ => (Quiet.newBlock _).then_ fun endBlock _ =>
    (Quiet.branch _ _ _).then_ fun _ _ => (Quiet.enter _).then_ fun _ _ =>
      tests.quietly fun _ => (Quiet.jumpIfOpen _).bind fun _ _ => Quiet.enter _

theorem lowerChoice_decides {condition : Value} {consequent alternative : Build Unit} {test : Prop}
    {rule : β → Prop} {view : β → Env} (tests : Tests scene env consequent test)
    (decides : Decides (State.Sees scene env) alternative rule
      fun outcome _ last => last.Sees scene (view outcome)) :
    Decides (State.Sees scene env) (lowerChoice condition consequent alternative)
      (fun outcome => test ∧ rule outcome) fun outcome _ last =>
        last.Sees scene (view outcome) := by
  refine (Quiet.newBlock _).then_ fun thenBlock _ => (Quiet.newBlock _).then_ fun elseBlock _ =>
    (Quiet.newBlock _).then_ fun endBlock _ => (Quiet.branch _ _ _).then_ fun _ _ =>
      (Quiet.enter _).then_ fun _ _ => tests.then_ fun _ _ => (Quiet.jumpIfOpen _).then_ fun _ _ =>
        (Quiet.enter _).then_ fun _ _ =>
          decides.quietly fun _ => (Quiet.jumpIfOpen _).bind fun _ _ => Quiet.enter _

theorem lowerTest_tests {bodyBlock endBlock : BlockName} {condition : Option Expr} :
    Tests (scene.inner context) env (lowerTest context bodyBlock endBlock condition)
      (∀ test ∈ condition, HasType env test .bool) := by
  cases condition with
  | none => exact (Quiet.jump _).tests.congr fun _ => by simp
  | some test =>
      exact (lowerCondition_then fun value => (Quiet.branch _ _ _).tests).congr fun _ => by simp

theorem lowerAdvance_tests {postBlock condBlock : BlockName} {advance : Option Expr} :
    Tests (scene.inner context) env (lowerAdvance context postBlock condBlock advance)
      (∀ expression ∈ advance, ∃ type, HasType env expression type) := by
  cases advance with
  | none => exact (Tests.pure ()).congr fun _ => by simp
  | some expression =>
      exact ((Quiet.enter _).then_ fun _ _ => lowerExpr_tests.then_ fun _ _ =>
        (Quiet.jump _).tests).congr fun _ => by simp

theorem lowerRounds_tests {condition advance : Option Expr} {body : LoopTargets → Build Unit}
    {test : Prop} (tests : ∀ targets, Tests (scene.inner context) env (body targets) test) :
    Tests (scene.inner context) env (lowerRounds context condition advance body)
      ((∀ test ∈ condition, HasType env test .bool) ∧ test ∧
        ∀ expression ∈ advance, ∃ type, HasType env expression type) := by
  have posts : Quiet (advance.mapM fun _ => newBlock "loop.post") fun _ => True := by
    cases advance with
    | none => exact .pure trivial
    | some _ =>
        rw [Option.mapM_some, map_eq_pure_bind]
        exact (Quiet.newBlock _).bind fun _ _ => .pure trivial
  refine (Quiet.newBlock _).then_ fun condBlock _ => (Quiet.newBlock _).then_ fun bodyBlock _ =>
    posts.then_ fun postBlock _ => (Quiet.newBlock _).then_ fun endBlock _ =>
      (Quiet.jump _).then_ fun _ _ => (Quiet.enter _).then_ fun _ _ =>
        lowerTest_tests.then_ fun _ _ => (Quiet.enter _).then_ fun _ _ =>
          (tests _).then_ fun _ _ => (Quiet.jumpIfOpen _).then_ fun _ _ =>
            lowerAdvance_tests.quietly fun _ => Quiet.enter _

theorem lowerStart_extends {start : Option LoopStart} :
    Extends (scene.inner context) outer [] (start.forM (lowerStart context))
      (Starts outer start) := by
  rcases start with _ | ⟨declaration | statement⟩
  · refine (Tests.pure ()).extends_.congr fun last => ?_
    constructor
    · rintro ⟨-, rfl⟩
      exact .nothing
    · rintro ⟨⟩
      exact ⟨trivial, rfl⟩
  · refine lowerVariable_extends.congr fun last => ?_
    constructor
    · rintro ⟨type, introduces, -, rfl⟩
      exact .variable introduces
    · rintro (_ | introduces)
      exact ⟨_, introduces, List.not_mem_nil, rfl⟩
  · have started : Tests (scene.inner context) ([] :: outer)
        (lowerStart context (.expression statement))
        (∃ type, HasType ([] :: outer) statement.expression type) :=
      lowerExpr_tests.quietly fun _ => Quiet.done ()
    refine started.extends_.congr fun last => ?_
    constructor
    · rintro ⟨⟨type, typed⟩, rfl⟩
      exact .expression typed
    · rintro (_ | _ | typed)
      exact ⟨⟨_, typed⟩, rfl⟩

end Control

section Rules

variable {result : BasicType} {inLoop : Bool} {last : Scope}

theorem admits_expression_iff {statement : ExprStmt} :
    Admits result inLoop outer own (.expression statement) last ↔
      (∃ type, HasType (own :: outer) statement.expression type) ∧ last = own := by
  constructor
  · rintro ⟨typed⟩
    exact ⟨⟨_, typed⟩, rfl⟩
  · rintro ⟨⟨type, typed⟩, rfl⟩
    exact .expression typed

theorem admits_variable_iff {declaration : VarDecl} :
    Admits result inLoop outer own (.variable declaration) last ↔
      ∃ type, Introduces (own :: outer) declaration type ∧ declaration.name.name ∉ own.names ∧
        last = own ++ [(declaration.name.name, Denoted.variable type)] := by
  constructor
  · rintro (_ | ⟨introduces, fresh⟩)
    exact ⟨_, introduces, fresh, rfl⟩
  · rintro ⟨type, introduces, fresh, rfl⟩
    exact .variable introduces fresh

theorem admits_block_iff {opening closing : Token} {body : List Stmt} :
    Admits result inLoop outer own (.block opening body closing) last ↔
      (∃ inner, AdmitsAll result inLoop (own :: outer) [] body inner) ∧ last = own := by
  constructor
  · rintro (_ | _ | admits)
    exact ⟨⟨_, admits⟩, rfl⟩
  · rintro ⟨⟨inner, admits⟩, rfl⟩
    exact .block admits

theorem admits_when_iff {first : Position} {condition : Expr} {opening closing : Token}
    {consequent : List Stmt} :
    Admits result inLoop outer own (.conditional first condition opening consequent closing none)
      last ↔
      HasType (own :: outer) condition .bool ∧
        (∃ inner, AdmitsAll result inLoop (own :: outer) [] consequent inner) ∧ last = own := by
  constructor
  · rintro (_ | _ | _ | ⟨typed, admits⟩)
    exact ⟨typed, ⟨_, admits⟩, rfl⟩
  · rintro ⟨typed, ⟨inner, admits⟩, rfl⟩
    exact .when typed admits

theorem admits_choice_iff {first : Position} {condition : Expr} {opening closing : Token}
    {consequent : List Stmt} {alternative : Stmt} :
    Admits result inLoop outer own
      (.conditional first condition opening consequent closing (some alternative)) last ↔
      HasType (own :: outer) condition .bool ∧
        (∃ inner, AdmitsAll result inLoop (own :: outer) [] consequent inner) ∧
          Admits result inLoop outer own alternative last := by
  constructor
  · rintro (_ | _ | _ | _ | ⟨typed, admits, other⟩)
    exact ⟨typed, ⟨_, admits⟩, other⟩
  · rintro ⟨typed, ⟨inner, admits⟩, other⟩
    exact .choice typed admits other

theorem admits_loop_iff {keyword : Token} {start : Option LoopStart}
    {condition advance : Option Expr} {opening closing : Token} {body : List Stmt} :
    Admits result inLoop outer own
      (.loop keyword start condition advance opening body closing) last ↔
      (∃ header, Starts (own :: outer) start header ∧
        (∀ test ∈ condition, HasType (header :: own :: outer) test .bool) ∧
        (∃ inner, AdmitsAll result true (header :: own :: outer) [] body inner) ∧
        ∀ expression ∈ advance, ∃ type, HasType (header :: own :: outer) expression type) ∧
      last = own := by
  constructor
  · rintro (_ | _ | _ | _ | _ | ⟨starts, tests, advances, admits⟩)
    exact ⟨⟨_, starts, tests, ⟨_, admits⟩, advances⟩, rfl⟩
  · rintro ⟨⟨header, starts, tests, ⟨inner, admits⟩, advances⟩, rfl⟩
    exact .loop starts tests advances admits

theorem admits_leave_iff {first : Position} {semicolon : Token} :
    Admits result inLoop outer own (.return_ first none semicolon) last ↔
      result = .void ∧ last = own := by
  constructor
  · rintro (_ | _ | _ | _ | _ | _ | void)
    exact ⟨void, rfl⟩
  · rintro ⟨void, rfl⟩
    exact .leave void

theorem admits_return_iff {first : Position} {value : Expr} {semicolon : Token} :
    Admits result inLoop outer own (.return_ first (some value) semicolon) last ↔
      (HasType (own :: outer) value result ∧ result ≠ .void) ∧ last = own := by
  constructor
  · rintro (_ | _ | _ | _ | _ | _ | _ | ⟨typed, notVoid⟩)
    exact ⟨⟨typed, notVoid⟩, rfl⟩
  · rintro ⟨⟨typed, notVoid⟩, rfl⟩
    exact .return_ typed notVoid

theorem admits_break_iff {keyword : Token} :
    Admits result inLoop outer own (.break_ keyword) last ↔ inLoop = true ∧ last = own := by
  constructor
  · rintro ⟨⟩
    exact ⟨rfl, rfl⟩
  · rintro ⟨rfl, rfl⟩
    exact .break_

theorem admits_continue_iff {keyword : Token} :
    Admits result inLoop outer own (.continue_ keyword) last ↔ inLoop = true ∧ last = own := by
  constructor
  · rintro ⟨⟩
    exact ⟨rfl, rfl⟩
  · rintro ⟨rfl, rfl⟩
    exact .continue_

theorem not_admits_function {first : Position} :
    ¬ Admits result inLoop outer own (.function first) last := by
  rintro ⟨⟩

theorem admitsAll_nil_iff : AdmitsAll result inLoop outer own [] last ↔ last = own := by
  constructor
  · rintro ⟨⟩
    rfl
  · rintro rfl
    exact .nil

theorem admitsAll_cons_iff {statement : Stmt} {statements : List Stmt} :
    AdmitsAll result inLoop outer own (statement :: statements) last ↔
      ∃ middle, Admits result inLoop outer own statement middle ∧
        AdmitsAll result inLoop outer middle statements last := by
  constructor
  · rintro (_ | ⟨first, rest⟩)
    exact ⟨_, first, rest⟩
  · rintro ⟨middle, first, rest⟩
    exact .cons first rest

end Rules

section Recursion

variable {loop : Option LoopTargets}

/-- Lowering decides in any scene whether a statement is well formed, also behind `else`. -/
structure Checks (statement : Stmt) : Prop where
  /-- The statement as one of a list. -/
  alone : ∀ (scene : Scene) (context : Context) (outer : Env) (own : Scope)
    (loop : Option LoopTargets), Extends (scene.inner context) outer own
      (lowerStmt context loop statement) (Admits scene.result loop.isSome outer own statement)
  /-- The statement as an alternative. -/
  alternative : ∀ (scene : Scene) (context : Context) (outer : Env) (own : Scope)
    (loop : Option LoopTargets), Extends (scene.inner context) outer own
      (lowerAlternative context loop statement)
        (Admits scene.result loop.isSome outer own statement)

/-- Lowering decides in any scene whether statements are well formed one after the other. -/
def ChecksAll (statements : List Stmt) : Prop :=
  ∀ (scene : Scene) (context : Context) (outer : Env) (own : Scope) (loop : Option LoopTargets),
    Extends (scene.inner context) outer own (lowerStmts context loop statements)
      (AdmitsAll scene.result loop.isSome outer own statements)

theorem ChecksAll.inScope {statements : List Stmt} (checks : ChecksAll statements)
    {kind : ScopeKind} {label : Bytes} :
    Tests (scene.inner context) env
      (Lowering.inScope context kind label fun inner => lowerStmts inner loop statements)
      (∃ inner, AdmitsAll scene.result loop.isSome env [] statements inner) :=
  inScope_tests fun _ => checks ..

/-- Only blocks are treated in another way behind `else`. -/
theorem Checks.of_alone {statement : Stmt}
    (same : ∀ context loop, lowerAlternative context loop statement =
      lowerStmt context loop statement)
    (alone : ∀ (scene : Scene) (context : Context) (outer : Env) (own : Scope)
      (loop : Option LoopTargets), Extends (scene.inner context) outer own
        (lowerStmt context loop statement) (Admits scene.result loop.isSome outer own statement)) :
    Checks statement where
  alone := alone
  alternative :=
    fun scene context outer own loop => same context loop ▸ alone scene context outer own loop

theorem checks_expression (statement : ExprStmt) : Checks (.expression statement) := by
  refine .of_alone (fun _ _ => rfl) fun scene context outer own loop => ?_
  rw [lowerStmt]
  have evaluated : Tests (scene.inner context) (own :: outer) (do
      let _ ← lowerExpr context statement.expression) _ :=
    lowerExpr_tests.quietly fun _ => Quiet.done ()
  exact Quiet.openBlock.then_ fun _ _ =>
    evaluated.extends_.congr fun last => admits_expression_iff.symm

theorem checks_variable (declaration : VarDecl) : Checks (.variable declaration) := by
  refine .of_alone (fun _ _ => rfl) fun scene context outer own loop => ?_
  rw [lowerStmt]
  exact Quiet.openBlock.then_ fun _ _ =>
    lowerVariable_extends.congr fun last => admits_variable_iff.symm

theorem checks_block {opening closing : Token} {body : List Stmt} (checks : ChecksAll body) :
    Checks (.block opening body closing) where
  alone := by
    intro scene context outer own loop
    rw [lowerStmt]
    exact Quiet.openBlock.then_ fun _ _ =>
      checks.inScope.extends_.congr fun last => admits_block_iff.symm
  alternative := fun scene context outer own loop =>
    checks.inScope.extends_.congr fun last => admits_block_iff.symm

theorem checks_when {first : Position} {condition : Expr} {opening closing : Token}
    {consequent : List Stmt} (checks : ChecksAll consequent) :
    Checks (.conditional first condition opening consequent closing none) := by
  refine .of_alone (fun _ _ => rfl) fun scene context outer own loop => ?_
  rw [lowerStmt]
  have decided : Tests (scene.inner context) (own :: outer) (do
      let value ← lowerCondition context "if" condition
      lowerWhen value
        (inScope context .block "if.then" fun inner => lowerStmts inner loop consequent)) _ :=
    lowerCondition_then fun _ => lowerWhen_tests checks.inScope
  refine Quiet.openBlock.then_ fun _ _ => decided.extends_.congr fun last => ?_
  rw [admits_when_iff, and_assoc]

theorem checks_choice {first : Position} {condition : Expr} {opening closing : Token}
    {consequent : List Stmt} {alternative : Stmt} (checks : ChecksAll consequent)
    (other : Checks alternative) :
    Checks (.conditional first condition opening consequent closing (some alternative)) := by
  refine .of_alone (fun _ _ => rfl) fun scene context outer own loop => ?_
  rw [lowerStmt_choice]
  exact Quiet.openBlock.then_ fun _ _ => (lowerCondition_then fun _ => lowerChoice_decides
    checks.inScope (other.alternative ..)).congr fun last => admits_choice_iff.symm

theorem checks_loop {keyword : Token} {start : Option LoopStart} {condition advance : Option Expr}
    {opening closing : Token} {body : List Stmt} (checks : ChecksAll body) :
    Checks (.loop keyword start condition advance opening body closing) := by
  refine .of_alone (fun _ _ => rfl) fun scene context outer own loop => ?_
  -- In the scope of the loop, the scope of whose body is inside it.
  have rounds : ∀ scope, Extends ((scene.inner context).inner scope) (own :: outer) [] (do
      start.forM (lowerStart scope)
      lowerRounds scope condition advance fun targets =>
        inScope scope .block "loop.body" fun inner => lowerStmts inner (some targets) body)
      fun header => Starts (own :: outer) start header ∧
        (∀ test ∈ condition, HasType (header :: own :: outer) test .bool) ∧
        (∃ inner, AdmitsAll scene.result true (header :: own :: outer) [] body inner) ∧
        ∀ expression ∈ advance, ∃ type, HasType (header :: own :: outer) expression type := by
    intro scope
    have inner : ∀ (header : Scope) (targets : LoopTargets),
        Tests ((scene.inner context).inner scope) (header :: own :: outer)
          (inScope scope .block "loop.body" fun inner => lowerStmts inner (some targets) body)
          (∃ inner, AdmitsAll scene.result true (header :: own :: outer) [] body inner) :=
      fun _ _ => checks.inScope
    refine (lowerStart_extends.bind fun header _ _ =>
      (lowerRounds_tests (inner header)).extends_).congr fun last => ?_
    constructor
    · rintro ⟨header, starts, decided, rfl⟩
      exact ⟨starts, decided⟩
    · rintro ⟨starts, decided⟩
      exact ⟨last, starts, decided, rfl⟩
  rw [lowerStmt]
  exact Quiet.openBlock.then_ fun _ _ =>
    (inScope_tests rounds).extends_.congr fun last => admits_loop_iff.symm

theorem checks_return (first : Position) (value : Option Expr) (semicolon : Token) :
    Checks (.return_ first value semicolon) := by
  refine .of_alone (fun _ _ => rfl) fun scene context outer own loop => ?_
  rw [lowerStmt]
  refine Quiet.openBlock.then_ fun _ _ => ?_
  cases value with
  | none => exact lowerLeave_tests.extends_.congr fun last => admits_leave_iff.symm
  | some value => exact lowerResult_tests.extends_.congr fun last => admits_return_iff.symm

theorem checks_break (keyword : Token) : Checks (.break_ keyword) := by
  refine .of_alone (fun _ _ => rfl) fun scene context outer own loop => ?_
  cases loop with
  | none =>
      rw [lowerStmt]
      exact Quiet.openBlock.then_ fun _ _ =>
        Decides.refuse.congr fun last => by simp [admits_break_iff]
  | some targets =>
      rw [lowerStmt]
      exact Quiet.openBlock.then_ fun _ _ =>
        (Quiet.jump _).tests.extends_.congr fun last => by simp [admits_break_iff]

theorem checks_continue (keyword : Token) : Checks (.continue_ keyword) := by
  refine .of_alone (fun _ _ => rfl) fun scene context outer own loop => ?_
  cases loop with
  | none =>
      rw [lowerStmt]
      exact Quiet.openBlock.then_ fun _ _ =>
        Decides.refuse.congr fun last => by simp [admits_continue_iff]
  | some targets =>
      rw [lowerStmt]
      exact Quiet.openBlock.then_ fun _ _ =>
        (Quiet.jump _).tests.extends_.congr fun last => by simp [admits_continue_iff]

theorem checks_function (first : Position) : Checks (.function first) := by
  refine .of_alone (fun _ _ => rfl) fun scene context outer own loop => ?_
  rw [lowerStmt]
  exact Quiet.openBlock.then_ fun _ _ =>
    Decides.refuse.congr fun last => ⟨False.elim, not_admits_function⟩

mutual

/-- **Lowering a statement decides whether it is well formed.** -/
theorem lowerStmt_checks : ∀ statement : Stmt, Checks statement
  | .expression statement => checks_expression statement
  | .variable declaration => checks_variable declaration
  | .block _ body _ => checks_block (lowerStmts_checks body)
  | .conditional _ _ _ consequent _ none => checks_when (lowerStmts_checks consequent)
  | .conditional _ _ _ consequent _ (some alternative) =>
      checks_choice (lowerStmts_checks consequent) (lowerStmt_checks alternative)
  | .loop _ _ _ _ _ body _ => checks_loop (lowerStmts_checks body)
  | .return_ first value semicolon => checks_return first value semicolon
  | .break_ keyword => checks_break keyword
  | .continue_ keyword => checks_continue keyword
  | .function first => checks_function first

/-- **Lowering statements decides whether they are well formed one after the other.** -/
theorem lowerStmts_checks : ∀ statements : List Stmt, ChecksAll statements
  | [] => by
      intro scene context outer own loop
      rw [lowerStmts]
      exact (Tests.pure ()).extends_.congr fun last => by simp [admitsAll_nil_iff]
  | statement :: rest => by
      intro scene context outer own loop
      rw [lowerStmts]
      exact (((lowerStmt_checks statement).alone scene context outer own loop).bind
        fun middle _ _ =>
        lowerStmts_checks rest scene context outer middle loop).congr fun last =>
          admitsAll_cons_iff.symm

end

end Recursion

end ScriptCompiler.Lowering
