import ScriptCompiler.Proofs.Statics.Scenes

/-!
# Lowering decides the types of expressions

An expression is lowered in a context exactly if it has a type in the environment of the context,
and its value has that type.
-/

namespace ScriptCompiler.Lowering

open IR Build Statics Semantics

variable {γ δ : Type} {scene : Scene} {env : Env} {state : State} {context : Context}

section Operators

theorem combines_iff {operator : TokenKind} {operand type : BasicType} :
    Combines operator operand type ↔
      ∃ opcode, binaryOpcode? operand operator = some opcode ∧
        type = if opcode.isComparison then .bool else operand := by
  constructor
  · rintro (⟨listed, numeric⟩ | ⟨listed, numeric⟩ | ⟨listed, comparable⟩)
    · simp only [List.mem_cons, List.not_mem_nil, or_false] at listed numeric
      rcases numeric with rfl | rfl <;> rcases listed with rfl | rfl | rfl | rfl | rfl <;>
        exact ⟨_, rfl, rfl⟩
    · simp only [List.mem_cons, List.not_mem_nil, or_false] at listed numeric
      rcases numeric with rfl | rfl <;> rcases listed with rfl | rfl | rfl | rfl <;>
        exact ⟨_, rfl, rfl⟩
    · simp only [List.mem_cons, List.not_mem_nil, or_false] at listed comparable
      rcases comparable with rfl | rfl | rfl <;> rcases listed with rfl | rfl <;>
        exact ⟨_, rfl, rfl⟩
  · rintro ⟨opcode, found, rfl⟩
    unfold binaryOpcode? at found
    split at found <;> cases found
    all_goals first
      | exact .arithmetic (by decide) (by decide)
      | exact .order (by decide) (by decide)
      | exact .equality (by decide) (by decide)

theorem turns_iff {operator : TokenKind} {type : BasicType} :
    Turns operator type ↔ ∃ opcode, unaryOpcode? type operator = some opcode := by
  constructor
  · rintro (numeric | _)
    · simp only [List.mem_cons, List.not_mem_nil, or_false] at numeric
      rcases numeric with rfl | rfl <;> exact ⟨_, rfl⟩
    · exact ⟨_, rfl⟩
  · rintro ⟨opcode, found⟩
    unfold unaryOpcode? at found
    split at found <;> cases found
    · exact .minus (by decide)
    · exact .minus (by decide)
    · exact .bang

theorem isValue_of_combines {operator : TokenKind} {operand type : BasicType}
    (combines : Combines operator operand type) : operand.IsValue := by
  rcases combines with ⟨-, numeric⟩ | ⟨-, numeric⟩ | ⟨-, comparable⟩
  · simp only [List.mem_cons, List.not_mem_nil, or_false] at numeric
    rcases numeric with rfl | rfl <;> exact ⟨by decide, by decide⟩
  · simp only [List.mem_cons, List.not_mem_nil, or_false] at numeric
    rcases numeric with rfl | rfl <;> exact ⟨by decide, by decide⟩
  · simp only [List.mem_cons, List.not_mem_nil, or_false] at comparable
    rcases comparable with rfl | rfl | rfl <;> exact ⟨by decide, by decide⟩

theorem compoundOperator?_eq : compoundOperator? = compoundArithmetic := rfl

end Operators

section Parts

theorem applyBinary_types {operator : TokenKind} {lexeme : Bytes} {position : Position}
    {left right : Value} :
    Types scene env (applyBinary context operator lexeme position left right) fun type =>
      left.type = right.type ∧ Combines operator left.type type := by
  have agree : ¬ (!left.type.agrees right.type) = true ↔
      left.type = right.type ∧ left.type ≠ .invalid := by
    simp [BasicType.agrees]
  unfold applyBinary
  simp only [combines_iff]
  cases found : binaryOpcode? left.type operator with
  | none =>
      refine (Decides.guard fun _ => Decides.refuse).congr fun type => ?_
      simp
  | some opcode =>
      have combines :
        Combines operator left.type (if opcode.isComparison then .bool else left.type) :=
        combines_iff.mpr ⟨opcode, found, rfl⟩
      refine (Decides.guard fun _ => (Quiet.define _ fun dest =>
        .binary opcode dest left right).types).congr fun type => ?_
      rw [agree]
      simp [(isValue_of_combines combines).2]

theorem applyUnary_types {operator : Token} {operand : Value} :
    Types scene env (applyUnary context operator operand) fun type =>
      type = operand.type ∧ Turns operator.kind operand.type := by
  simp only [turns_iff]
  unfold applyUnary
  cases unaryOpcode? operand.type operator.kind with
  | none => exact Decides.refuse.congr fun type => by simp
  | some opcode =>
      exact (Quiet.define _ fun dest => .unary opcode dest operand).types.congr fun type => by simp

theorem requireTruth_tests {operator : Token} {place : Position} {value : Value} :
    Tests scene env (requireTruth context operator place value) (value.type = .bool) where
  sound := by
    intro state last _ sees run
    obtain ⟨truth, rfl⟩ := requireTruth_ok run
    exact ⟨(), truth, sees⟩
  complete := fun sees truth => ⟨(), _, guardLast_ok.mpr ⟨by simp [truth], rfl⟩, sees⟩

theorem storeVariable_types {symbol : Symbol} {slot : Place} {place : Position} {value : Value}
    (isValue : slot.type.IsValue) :
    Types scene env (storeVariable context symbol slot place value) fun type =>
      type = slot.type ∧ value.type = slot.type := by
  have store : Types scene env (do
      emit (.store (.slot slot) value)
      return value) fun type => type = value.type :=
    Quiet.types ((Quiet.emit _).bind fun _ _ => .pure rfl)
  refine (Decides.guard fun _ => store).congr fun type => ?_
  simp only [Bool.not_eq_true', Bool.not_eq_false, assignable_iff]
  constructor
  · rintro ⟨⟨same, -⟩, rfl⟩
    exact ⟨same, same⟩
  · rintro ⟨rfl, same⟩
    exact ⟨⟨same, same ▸ isValue.1, same ▸ isValue.2⟩, same.symm⟩

/-- A symbol has a slot, with the type of the variable. -/
def State.Holds (state : State) (symbol : Symbol) (type : BasicType) : Prop :=
  ∃ slot, state.slot? symbol = some slot ∧ slot.type = type

theorem slotOf_then {symbol : Symbol} {type : BasicType} {next : Place → Build γ} {rule : δ → Prop}
    {after : δ → γ → State → Prop}
    (decides : ∀ place : Place, place.type = type →
      Decides (State.Sees scene env) (next place) rule after) :
    Decides (fun state => state.Holds symbol type ∧ state.Sees scene env) (slotOf symbol >>= next)
      rule after where
  sound := by
    rintro state last value ⟨⟨slot, held, typed⟩, sees⟩ run
    obtain ⟨place, middle, found, run⟩ := bind_ok.mp run
    obtain ⟨slot', held', same⟩ := slotOf_ok.mp found
    obtain ⟨rfl, rfl⟩ := Prod.mk.inj same
    obtain rfl := Option.some.inj (held.symm.trans held')
    exact (decides _ typed).sound sees run
  complete := by
    rintro state outcome ⟨⟨slot, held, typed⟩, sees⟩ applies
    obtain ⟨value, last, run, shows⟩ := (decides _ typed).complete sees applies
    exact ⟨value, last, bind_ok.mpr ⟨_, state, slotOf_ok.mpr ⟨slot, held, rfl⟩, run⟩, shows⟩

/-- A name is looked up successfully exactly if it denotes a variable. -/
theorem lookupVariable_decides {identifier : Identifier} :
    Decides (State.Sees (scene.inner context) env) (lookupVariable context identifier)
      (fun type => env.find? identifier.name = some (.variable type)) fun type symbol last =>
      symbol.isAssignable = true ∧ last.Holds symbol type ∧
      last.Sees (scene.inner context) env where
  sound := by
    intro state last symbol sees run
    obtain ⟨found, finds, kind, rfl, rfl⟩ := lookupVariable_ok run
    obtain ⟨place, slot, means⟩ := sees.wellScoped.variable_of_find? finds kind
    obtain ⟨-, _, _, placed⟩ := sees.wellScoped.placed_of_find? finds
    have slot : (state.use found identifier.name).slot? { found with used := true } = some place :=
      slot
    refine ⟨place.type, ?_, placed.assignable kind, ⟨place, slot, rfl⟩, sees.use⟩
    rw [← sees.find?, means]
    rfl
  complete := by
    intro state type sees denotes
    rw [← sees.find?] at denotes
    obtain ⟨meaning, means, denotes⟩ := Option.map_eq_some_iff.mp denotes
    obtain ⟨found, finds, isMeaning⟩ := Option.map_eq_some_iff.mp means
    have kind : found.kind ≠ .function := by
      intro isFunction
      rw [← isMeaning, State.meaning, if_pos isFunction] at denotes
      cases denotes
    obtain ⟨place, slot, means'⟩ := sees.wellScoped.variable_of_find? finds kind
    obtain ⟨-, _, _, placed⟩ := sees.wellScoped.placed_of_find? finds
    have slot : (state.use found identifier.name).slot? { found with used := true } = some place :=
      slot
    refine ⟨{ found with used := true }, state.use found identifier.name, ?_,
      placed.assignable kind, ?_,
      sees.use⟩
    · refine bind_ok.mpr
        ⟨_, _, onTable_ok.mpr ⟨sees.inside, _, resolve_ok.mpr ⟨found, finds, rfl⟩, rfl⟩,
        ?_⟩
      exact guard_ok.mpr ⟨by simpa using kind, pure_ok.mpr rfl⟩
    · obtain rfl : meaning = .variable place := Option.some.inj (means.symm.trans means')
      cases denotes
      exact ⟨place, slot, rfl⟩

/-- What a callee denotes: a function with a signature, or without one the output function. -/
def IsCallee (env : Env) (callee : Identifier) : Option Signature → Prop
  | some signature => env.find? callee.name = some (.function signature)
  | none => env.find? callee.name = none ∧ callee.name = outputName

/-- The target of a call, as far as the rules know it. -/
def Target.Refers : Target → Option Signature → Prop
  | .declared _ signature, found => found = some signature
  | .print, found => found = none

theorem resolveCallee_decides {callee : Identifier} :
    Decides (State.Sees (scene.inner context) env) (resolveCallee context callee)
      (IsCallee env callee) fun outcome target last =>
        target.Refers outcome ∧ last.Sees (scene.inner context) env where
  sound := by
    intro state last target sees run
    rcases resolveCallee_ok run with
      ⟨found, signature, finds, typed, rfl, rfl⟩ | ⟨absent, isPrint, rfl, rfl⟩
    · obtain ⟨-, means⟩ := sees.wellScoped.function_of_find? finds typed
      refine ⟨some signature, ?_, rfl, sees.use⟩
      rw [IsCallee, ← sees.find?, means]
      rfl
    · refine ⟨none, ⟨?_, isPrint⟩, rfl, sees⟩
      rw [← sees.find?, State.meaning?, absent]
      rfl
  complete := by
    intro state outcome sees denotes
    cases outcome with
    | some signature =>
        rw [IsCallee, ← sees.find?] at denotes
        obtain ⟨meaning, means, denotes⟩ := Option.map_eq_some_iff.mp denotes
        obtain ⟨found, finds, isMeaning⟩ := Option.map_eq_some_iff.mp means
        obtain ⟨-, _, _, placed⟩ := sees.wellScoped.placed_of_find? finds
        have kind : found.kind = .function := by
          refine Decidable.byContradiction fun kind => ?_
          rw [← isMeaning, State.meaning, if_neg kind] at denotes
          cases denotes
        obtain ⟨signature', written⟩ := placed.signature kind
        have typed : (found.type >>= Ty.signature?) = some signature' := by
          rw [written]
          exact signature?_ofSignature signature'
        rw [← isMeaning, State.meaning, if_pos kind, typed, Option.getD_some] at denotes
        cases denotes
        refine ⟨.declared found.name _, state.use found callee.name, ?_, rfl, sees.use⟩
        refine bind_ok.mpr ⟨_, state, tableAt_ok.mpr ⟨sees.inside, rfl⟩, ?_⟩
        simp only [ScopeTable.resolve, finds]
        refine bind_ok.mpr ⟨(), state.use found callee.name, rfl, ?_⟩
        simp only [typed]
        exact pure_ok.mpr rfl
    | none =>
        obtain ⟨absent, isPrint⟩ := denotes
        replace isPrint : callee.name = printName := isPrint
        rw [← sees.find?, Option.map_eq_none_iff, State.meaning?, Option.map_eq_none_iff] at absent
        refine ⟨.print, state, ?_, rfl, sees⟩
        refine bind_ok.mpr ⟨_, state, tableAt_ok.mpr ⟨sees.inside, rfl⟩, ?_⟩
        simp only [ScopeTable.resolve, absent]
        rw [if_pos (beq_iff_eq.mpr isPrint)]
        exact pure_ok.mpr rfl

end Parts

section Operations

theorem lowerBinary_types {left right : Expr} {operator : Token}
    (first : Types (scene.inner context) env (lowerExpr context left) (HasType env left))
    (second : Types (scene.inner context) env (lowerExpr context right) (HasType env right)) :
    Types (scene.inner context) env (lowerExpr context (.binary left operator right))
      (HasType env (.binary left operator right)) := by
  have rest : ∀ value : Value, Types (scene.inner context) env (do
      let other ← lowerExpr context right
      applyBinary context operator.kind operator.lexeme operator.position value other)
      fun type => HasType env right value.type ∧ Combines operator.kind value.type type := by
    intro value
    refine second.then_ (fun other _ => applyBinary_types) ?_ ?_
    · rintro other type typed ⟨same, combines⟩
      exact ⟨same ▸ typed, combines⟩
    · rintro type ⟨typed, combines⟩
      exact ⟨value.type, typed, fun other same => ⟨same.symm, combines⟩⟩
  rw [lowerExpr]
  refine first.then_ (fun value _ => rest value) ?_ ?_
  · rintro value type typed ⟨typed', combines⟩
    exact .binary typed typed' combines
  · rintro type (_ | _ | _ | ⟨typed, typed', combines⟩)
    refine ⟨_, typed, ?_⟩
    rintro value rfl
    exact ⟨typed', combines⟩

theorem lowerUnary_types {operand : Expr} {operator : Token}
    (inner : Types (scene.inner context) env (lowerExpr context operand) (HasType env operand)) :
    Types (scene.inner context) env (lowerExpr context (.unary operator operand))
      (HasType env (.unary operator operand)) := by
  rw [lowerExpr]
  refine inner.then_ (fun value _ => applyUnary_types) ?_ ?_
  · rintro value _ typed ⟨rfl, turns⟩
    exact .unary typed turns
  · rintro type (_ | _ | _ | _ | _ | ⟨typed, turns⟩)
    refine ⟨type, typed, ?_⟩
    rintro value rfl
    exact ⟨rfl, turns⟩

theorem lowerLogical_types {left right : Expr} {operator : Token}
    (first : Types (scene.inner context) env (lowerExpr context left) (HasType env left))
    (second : Types (scene.inner context) env (lowerExpr context right) (HasType env right)) :
    Types (scene.inner context) env (lowerExpr context (.logical left operator right))
      (HasType env (.logical left operator right)) := by
  -- Behind the left operand there are blocks, a slot and the right operand.
  have rest : ∀ value : Value, Types (scene.inner context) env
      (lowerLogical context operator right.first value (lowerExpr context right))
      fun type => HasType env right .bool ∧ type = .bool := by
    intro value
    have branches : ∀ conjunction rest done,
        Quiet (branchLogical conjunction value rest done) fun _ => True := by
      intro conjunction rest done
      cases conjunction with
      | true => exact .branch _ _ _
      | false => exact .branch _ _ _
    refine (Quiet.newSlot .bool _).then_ fun slot slotType => (Quiet.emit _).then_ fun _ _ =>
      (Quiet.newBlock _).then_ fun restBlock _ => (Quiet.newBlock _).then_ fun done _ =>
        (branches _ restBlock done).then_ fun _ _ => (Quiet.enter restBlock).then_ fun _ _ => ?_
    refine second.then_ (fun other _ => requireTruth_tests.then_ fun _ _ =>
      (Quiet.emit _).then_ fun _ _ => (Quiet.jump done).then_ fun _ _ =>
        (Quiet.enter done).then_ fun _ _ => (slotType ▸ Quiet.loadSlot slot).types) ?_ ?_
    · rintro other type typed ⟨truth, rfl⟩
      exact ⟨truth ▸ typed, rfl⟩
    · rintro type ⟨typed, rfl⟩
      exact ⟨.bool, typed, fun other truth => ⟨truth, rfl⟩⟩
  rw [lowerExpr]
  refine first.then_ (fun value _ => requireTruth_tests.then_ fun _ _ => rest value) ?_ ?_
  · rintro value type typed ⟨truth, typed', rfl⟩
    exact .logical (truth ▸ typed) typed'
  · rintro type (_ | _ | _ | _ | ⟨typed, typed'⟩)
    exact ⟨.bool, typed, fun value truth => ⟨truth, typed', rfl⟩⟩

theorem lowerLiteral_types {token : Token} {value : Literal} :
    Types (scene.inner context) env (lowerExpr context (.literal token value))
      (HasType env (.literal token value)) := by
  have quiet : Quiet (lowerLiteral value) fun found => found.type = literalType value := by
    cases value with
    | int value => exact (Quiet.newConstant _).mono fun found same => same ▸ rfl
    | float value => exact (Quiet.newConstant _).mono fun found same => same ▸ rfl
    | bool value => exact (Quiet.newConstant _).mono fun found same => same ▸ rfl
    | string content => exact Quiet.newString content
  rw [lowerExpr]
  refine quiet.types.congr fun type => ?_
  constructor
  · rintro rfl
    exact .literal
  · rintro ⟨⟩
    rfl

theorem lowerGroup_types {opening closing : Token} {expression : Expr}
    (inner : Types (scene.inner context) env (lowerExpr context expression)
      (HasType env expression)) :
    Types (scene.inner context) env (lowerExpr context (.group opening expression closing))
      (HasType env (.group opening expression closing)) := by
  rw [lowerExpr]
  refine inner.congr fun type => ⟨.group, ?_⟩
  rintro (_ | _ | typed)
  exact typed

theorem lowerVariable_types {identifier : Identifier} :
    Types (scene.inner context) env (lowerExpr context (.variable identifier))
      (HasType env (.variable identifier)) := by
  have load : ∀ (type : BasicType) (symbol : Symbol),
      Decides (fun state => state.Holds symbol type ∧ state.Sees (scene.inner context) env)
        (slotOf symbol >>= loadSlot) (fun other => other = type)
        fun type value last => value.type = type ∧ last.Sees (scene.inner context) env :=
    fun type symbol => slotOf_then fun place typed => (typed ▸ Quiet.loadSlot place).types
  rw [lowerExpr]
  refine (lookupVariable_decides.bind fun type symbol _ => .of_fact fun _ => load type symbol).congr
    fun type => ?_
  constructor
  · rintro ⟨_, found, rfl⟩
    exact .variable found
  · rintro (_ | found)
    exact ⟨type, found, rfl⟩

/-- What an assignment does behind the value that is assigned. -/
theorem storeAssigned_types {operator : Token} {symbol : Symbol} {slot : Place} {place : Position}
    {assigned : Value} (isValue : slot.type.IsValue) :
    Types scene env (match compoundOperator? operator.kind with
      | none => storeVariable context symbol slot place assigned
      | some arithmetic => do
          let present ← loadSlot slot
          let combined ← applyBinary context arithmetic (operator.lexeme.take 1) operator.position
            present assigned
          storeVariable context symbol slot place combined) fun type =>
      type = slot.type ∧ assigned.type = slot.type ∧
        ∀ arithmetic ∈ compoundArithmetic operator.kind,
          Combines arithmetic slot.type slot.type := by
  rw [compoundOperator?_eq]
  cases compoundArithmetic operator.kind with
  | none => exact (storeVariable_types isValue).congr fun type => by simp
  | some arithmetic =>
      refine (Quiet.loadSlot slot).then_ fun present typed => ?_
      refine applyBinary_types.then_ (fun combined _ => storeVariable_types isValue) ?_ ?_
      · rintro combined type ⟨same, combines⟩ ⟨rfl, stored⟩
        rw [stored, typed] at combines
        refine ⟨rfl, same.symm.trans typed, ?_⟩
        rintro _ ⟨⟩
        exact combines
      · rintro type ⟨rfl, same, combines⟩
        refine ⟨slot.type, ⟨typed.trans same.symm, ?_⟩, fun combined stored => ⟨rfl, stored⟩⟩
        rw [typed]
        exact combines arithmetic rfl

theorem lowerAssignment_types {target : Identifier} {operator : Token} {value : Expr}
    (inner : Types (scene.inner context) env (lowerExpr context value) (HasType env value)) :
    Types (scene.inner context) env (lowerExpr context (.assignment target operator value))
      (HasType env (.assignment target operator value)) := by
  -- Behind the name of the target, which denotes a variable of a type.
  have rest : ∀ (symbol : Symbol) (type : BasicType), symbol.isAssignable = true → type.IsValue →
      Decides (fun state => state.Holds symbol type ∧ state.Sees (scene.inner context) env) (do
        if !symbol.isAssignable then
          refuse context target.first (.notAssignable symbol.name)
        let slot ← slotOf symbol
        let assigned ← lowerExpr context value
        match compoundOperator? operator.kind with
        | none => storeVariable context symbol slot value.first assigned
        | some arithmetic =>
            let present ← loadSlot slot
            let combined ← applyBinary context arithmetic (operator.lexeme.take 1) operator.position
              present assigned
            storeVariable context symbol slot value.first combined)
        (fun other => other = type ∧ HasType env value type ∧
          ∀ arithmetic ∈ compoundArithmetic operator.kind, Combines arithmetic type type)
        fun type value last => value.type = type ∧ last.Sees (scene.inner context) env := by
    intro symbol type assignable isValue
    simp only [assignable, Bool.not_true, Bool.false_eq_true, if_false]
    refine slotOf_then fun slot slotType => ?_
    subst slotType
    refine inner.then_ (fun assigned _ => storeAssigned_types isValue) ?_ ?_
    · rintro assigned type typed ⟨rfl, same, combines⟩
      exact ⟨rfl, same ▸ typed, combines⟩
    · rintro type ⟨rfl, typed, combines⟩
      exact ⟨slot.type, typed, fun assigned same => ⟨rfl, same, combines⟩⟩
  refine .of_before (fun _ sees _ => sees.proper_of_find?) fun
    (proper : ∀ denoted, env.find? target.name = some denoted → Proper denoted) => ?_
  rw [lowerExpr]
  refine (lookupVariable_decides.bind fun type symbol found => .of_fact fun assignable =>
    rest symbol type assignable (proper _ found)).congr fun type => ?_
  constructor
  · rintro ⟨_, found, rfl, typed, combines⟩
    cases compound : compoundArithmetic operator.kind with
    | none => exact .assignment found typed compound
    | some arithmetic => exact .compound found typed compound (combines arithmetic compound)
  · rintro (_ | _ | _ | _ | _ | _ | ⟨found, typed, plain⟩ | ⟨found, typed, compound, combines⟩)
    · exact ⟨type, found, rfl, typed, by simp [plain]⟩
    · exact ⟨type, found, rfl, typed, by simpa [compound] using combines⟩

theorem emitPrint_types {place : Position} {value : Value} :
    Types scene env (emitPrint context place value) fun type =>
      type = .void ∧ value.type.IsValue := by
  unfold emitPrint
  have formats : value.type.IsValue ↔ ∃ format, printFormat? value.type = some format := by
    cases value.type <;> simp [BasicType.IsValue, printFormat?]
  simp only [formats]
  cases printFormat? value.type with
  | none => exact Decides.refuse.congr fun type => by simp
  | some format =>
      have declare : Quiet (modify fun state : State =>
          { state with externals := declareExternal state.externals formatter } : Build Unit)
          fun _ => True :=
        fun state => ⟨(), state.addFormatter, rfl, trivial, rfl, rfl, rfl⟩
      exact (Quiet.types (declare.bind fun _ _ => (Quiet.newString format).bind fun text _ =>
        (Quiet.emit _).bind fun _ _ => Quiet.noValue)).congr fun type => by simp

theorem emitCall_types {name : Bytes} {signature : Signature} {values : List Value} :
    Types scene env (emitCall name signature values) fun type => type = signature.result := by
  refine Quiet.types ?_
  unfold emitCall
  split
  · rename_i void
    rw [beq_iff_eq.mp void]
    exact (Quiet.emit _).bind fun _ _ => Quiet.noValue
  · exact Quiet.define signature.result fun dest => .call (some dest) ⟨.defined, name⟩ values

theorem haveTypes_length {arguments : List Expr} {types : List BasicType}
    (typed : HaveTypes env arguments types) : arguments.length = types.length := by
  induction arguments generalizing types with
  | nil =>
      cases typed
      rfl
  | cons argument arguments ih =>
      cases typed with
      | cons _ rest => rw [List.length_cons, List.length_cons, ih rest]

theorem lowerArguments_tests {name : Bytes} {number : Nat} {arguments : List Expr}
    (single : ∀ argument ∈ arguments,
      Types (scene.inner context) env (lowerExpr context argument) (HasType env argument))
    {types : List BasicType} (count : arguments.length = types.length)
    (isValue : ∀ type ∈ types, type.IsValue) :
    Tests (scene.inner context) env (lowerArguments context name number types arguments)
      (HaveTypes env arguments types) := by
  induction arguments generalizing types number with
  | nil =>
      obtain rfl := List.length_eq_zero_iff.mp count.symm
      rw [lowerArguments]
      · exact (Tests.pure []).congr fun _ => ⟨fun _ => .nil, fun _ => trivial⟩
      · exact fun _ _ _ _ absurd _ => by cases absurd
  | cons argument arguments ih =>
      cases types with
      | nil => cases count
      | cons wanted types =>
          obtain ⟨first, others⟩ := List.forall_mem_cons.mp single
          obtain ⟨wantedValue, isValue⟩ := List.forall_mem_cons.mp isValue
          have rest := @ih (number + 1) others types (Nat.succ.inj count) isValue
          have checked : ∀ value : Value, Tests (scene.inner context) env (do
              if !value.type.assignableTo wanted then
                refuse context argument.first (.argumentType number name wanted value.type)
              let values ← lowerArguments context name (number + 1) types arguments
              return value :: values) (value.type = wanted ∧ HaveTypes env arguments types) := by
            intro value
            refine (Decides.guard fun _ => rest.then_ fun values _ =>
              Tests.pure (value :: values)).congr fun outcome => ?_
            simp only [Bool.not_eq_true', Bool.not_eq_false, assignable_iff, and_true]
            exact ⟨fun ⟨same, typed⟩ => ⟨same.1, typed⟩,
              fun ⟨same, typed⟩ => ⟨⟨same, same ▸ wantedValue⟩, typed⟩⟩
          rw [lowerArguments]
          refine first.then_ (fun value _ => checked value) ?_ ?_
          · rintro value _ typed ⟨rfl, typed'⟩
            exact .cons typed typed'
          · rintro _ (_ | ⟨typed, typed'⟩)
            exact ⟨wanted, typed, fun value same => ⟨same, typed'⟩⟩

/-- Expressions have no invalid type where everything that is declared can be used. -/
theorem ne_invalid_of_hasType (proper : ∀ name denoted, env.find? name = some denoted →
    Proper denoted) : ∀ {expression : Expr} {type : BasicType}, HasType env expression type →
    type ≠ .invalid
  | _, _, @HasType.literal _ _ value => by cases value <;> simp [literalType]
  | _, _, .variable found => (proper _ _ found).2
  | _, _, .group inner => ne_invalid_of_hasType proper inner
  | _, _, .binary _ _ combines => by
      cases combines with
      | arithmetic _ numeric =>
          rintro rfl
          simp at numeric
      | order => decide
      | equality => decide
  | _, _, .logical .. => by decide
  | _, _, .unary inner _ => ne_invalid_of_hasType proper inner
  | _, _, .assignment found _ _ => (proper _ _ found).2
  | _, _, .compound found _ _ _ => (proper _ _ found).2
  | _, _, .call found _ => (proper _ _ found).2
  | _, _, .print .. => by decide

/-- The type of a call of a function with a signature, or without one of the output function. -/
def IsCall (env : Env) (arguments : List Expr) : Option Signature → BasicType → Prop
  | some signature, type => HaveTypes env arguments signature.params ∧ type = signature.result
  | none, type => ∃ argument printed, arguments = [argument] ∧ HasType env argument printed ∧
      printed ≠ .void ∧ type = .void

theorem hasType_call_iff {callee : Identifier} {arguments : List Expr} {closing : Token}
    {type : BasicType} :
    HasType env (.call callee arguments closing) type ↔
      ∃ found, IsCallee env callee found ∧ IsCall env arguments found type := by
  constructor
  · rintro (_ | _ | _ | _ | _ | _ | _ | _ | ⟨found, typed⟩ | ⟨absent, isPrint, typed, notVoid⟩)
    · exact ⟨some _, found, typed, rfl⟩
    · exact ⟨none, ⟨absent, isPrint⟩, _, _, rfl, typed, notVoid, rfl⟩
  · rintro ⟨found | signature, isCallee, call⟩
    · obtain ⟨argument, printed, rfl, typed, notVoid, rfl⟩ := call
      exact .print isCallee.1 isCallee.2 typed notVoid
    · obtain ⟨typed, rfl⟩ := call
      exact .call isCallee typed

/-- A call of the output function. -/
def lowerOutput (context : Context) (callee : Identifier) : List Expr → Build Value
  | [argument] => do
      let value ← lowerExpr context argument
      emitPrint context argument.first value
  | arguments => refuse context callee.first (.printCount arguments.length)

theorem lowerOutput_types {callee : Identifier} {arguments : List Expr}
    (single : ∀ argument ∈ arguments,
      Types (scene.inner context) env (lowerExpr context argument) (HasType env argument)) :
    Types (scene.inner context) env (lowerOutput context callee arguments)
      (IsCall env arguments none) := by
  match arguments with
  | [] => exact Decides.refuse.congr fun type => by simp [IsCall]
  | _ :: _ :: _ => exact Decides.refuse.congr fun type => by simp [IsCall]
  | [argument] =>
      refine .of_before (fun _ sees _ _ => sees.proper_of_find?) fun
        (proper : ∀ name denoted, env.find? name = some denoted → Proper denoted) => ?_
      refine (single argument List.mem_cons_self).then_ (fun value _ => emitPrint_types) ?_ ?_
      · rintro value _ typed ⟨rfl, isValue⟩
        exact ⟨argument, value.type, rfl, typed, isValue.1, rfl⟩
      · rintro type ⟨_, printed, same, typed, notVoid, rfl⟩
        obtain rfl : argument = _ := List.head_eq_of_cons_eq same
        refine ⟨printed, typed, ?_⟩
        rintro value rfl
        exact ⟨rfl, notVoid, ne_invalid_of_hasType proper typed⟩

theorem lowerCall_types {callee : Identifier} {arguments : List Expr} {closing : Token}
    (single : ∀ argument ∈ arguments,
      Types (scene.inner context) env (lowerExpr context argument) (HasType env argument)) :
    Types (scene.inner context) env (lowerExpr context (.call callee arguments closing))
      (HasType env (.call callee arguments closing)) := by
  refine .of_before (fun _ sees _ _ => sees.proper_of_find?) fun
    (proper : ∀ name denoted, env.find? name = some denoted → Proper denoted) => ?_
  unfold lowerExpr
  refine (resolveCallee_decides.bind fun found target isCallee => .of_fact fun refers => ?_).congr
    fun type => hasType_call_iff.symm
  cases target with
  | print =>
      cases refers
      have output := @lowerOutput_types scene env context callee arguments single
      rcases arguments with _ | ⟨_, _ | _⟩ <;> exact output
  | declared name signature =>
      cases refers
      refine (Decides.guard fun count => (lowerArguments_tests single (by simpa using count)
        (proper _ _ isCallee).1).then_ fun values _ => emitCall_types).congr fun type => ?_
      constructor
      · rintro ⟨-, typed, rfl⟩
        exact ⟨typed, rfl⟩
      · rintro ⟨typed, rfl⟩
        exact ⟨by simpa using haveTypes_length typed, typed, rfl⟩

end Operations

mutual

/-- **Lowering an expression decides its type.** -/
theorem lowerExpr_types : ∀ expression : Expr,
    Types (scene.inner context) env (lowerExpr context expression) (HasType env expression)
  | .literal _ _ => lowerLiteral_types
  | .variable _ => lowerVariable_types
  | .group _ inner _ => lowerGroup_types (lowerExpr_types inner)
  | .binary left _ right => lowerBinary_types (lowerExpr_types left) (lowerExpr_types right)
  | .logical left _ right => lowerLogical_types (lowerExpr_types left) (lowerExpr_types right)
  | .unary _ operand => lowerUnary_types (lowerExpr_types operand)
  | .assignment _ _ value => lowerAssignment_types (lowerExpr_types value)
  | .call _ arguments _ => lowerCall_types (lowerExprs_types arguments)

theorem lowerExprs_types : ∀ expressions : List Expr, ∀ expression ∈ expressions,
    Types (scene.inner context) env (lowerExpr context expression) (HasType env expression)
  | [] => List.forall_mem_nil _
  | expression :: rest =>
      List.forall_mem_cons.mpr ⟨lowerExpr_types expression, lowerExprs_types rest⟩

end

end ScriptCompiler.Lowering
