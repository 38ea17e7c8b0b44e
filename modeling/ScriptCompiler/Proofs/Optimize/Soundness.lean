import ScriptCompiler.Proofs.Optimize.Meaning

/-!
# Optimized functions are sound

Soundness can be read off a function whoever made it: from its types, from where its definitions
stand and from the range of its constants.  The certificate of a block is what is supplied on every
way to it.  Passes keep all of this, so behind an optimizer no run gets stuck
(`Optimizer.optimize_sound`).
-/

namespace ScriptCompiler.IR

/-! ### Supplies on every way -/

section Supplies

variable {instr use : Instr} {instrs : List Instr} {value : Value} {supply : Supply}

/-- Who defines a value supplies it. -/
theorem Instr.supplies_of_result (isResult : instr.result? = some value)
    (isSupply : value.supply? = some supply) : supply ∈ instr.supplies := by
  cases instr with
  | binary | unary | copy | load =>
      cases isResult
      cases isSupply
      exact List.mem_singleton_self _
  | alloca =>
      cases isResult
      cases isSupply
      exact List.mem_singleton_self _
  | call dest callee arguments =>
      obtain ⟨temp, rfl, rfl⟩ := Option.map_eq_some_iff.mp isResult
      cases isSupply
      exact List.mem_singleton_self _
  | store | jump | branch | ret => cases isResult

theorem Instr.supplies_eq_nil (terminator : instr.isTerminator = true) : instr.supplies = [] := by
  cases instr with
  | jump | branch | ret => rfl
  | binary | unary | copy | alloca | load | store | call => cases terminator

/-- An instruction asks for what it reads, or a load for the content of its slot. -/
theorem Instr.demands_cases (asked : supply ∈ use.demands) :
    (∃ value ∈ use.operands, value.supply? = some supply) ∨
      ∃ dest place, use = .load dest (.slot place) ∧ supply = .content place.id := by
  have read : ∀ value : Value, supply ∈ value.demands → value.supply? = some supply := by
    intro value asked
    cases value with
    | temp result => rw [List.mem_singleton.mp asked, Value.supply?]
    | constant | param | slot | string | stray => cases asked
  have plain : supply ∈ use.operands.flatMap Value.demands →
      ∃ value ∈ use.operands, value.supply? = some supply := by
    intro asked
    obtain ⟨value, member, given⟩ := List.mem_flatMap.mp asked
    exact ⟨value, member, read value given⟩
  cases use with
  | load dest address =>
      cases address with
      | slot place => exact .inr ⟨dest, place, rfl, List.mem_singleton.mp asked⟩
      | constant | param | temp | string | stray => exact .inl (plain asked)
  | store address content =>
      cases address with
      | slot place =>
          rcases List.mem_cons.mp asked with rfl | later
          · exact .inl ⟨_, List.mem_cons_self, rfl⟩
          · exact .inl ⟨content, by simp [operands], read content later⟩
      | constant | param | temp | string | stray => exact .inl (plain asked)
  | binary | unary | copy | alloca | call | jump | branch | ret => exact .inl (plain asked)

/-- Where definitions and stores come first, everything that is asked for is supplied before. -/
theorem DefinedFirst.suppliedFirst (defined : DefinedFirst instrs) (filled : FilledFirst instrs) :
    SuppliedFirst instrs := by
  intro earlier use later split supply asked
  rcases Instr.demands_cases asked with ⟨value, read, isSupply⟩ | ⟨dest, place, rfl, rfl⟩
  · obtain ⟨definition, before, isResult⟩ :=
      defined earlier use later split value read (Value.isLocal_iff.mpr ⟨supply, isSupply⟩)
    exact ⟨definition, before, Instr.supplies_of_result isResult isSupply⟩
  · obtain ⟨slot, content, same, before⟩ := filled earlier dest _ later split
    exact ⟨_, before, List.mem_singleton_self _⟩

end Supplies

namespace Function

variable {function : Function} {known : Callee → Bool} {id : Nat}

/-- What is supplied on every way from the entry to the beginning of a block. -/
def suppliedAt (function : Function) (id : Nat) : Set Supply :=
  { supply | ∀ passed, function.Trail id passed → ∃ instr ∈ passed, supply ∈ instr.supplies }

theorem suppliedAt_entry : function.suppliedAt entry = ∅ := by
  refine Set.eq_empty_of_forall_notMem fun supply given => ?_
  obtain ⟨instr, member, -⟩ := given [] .start
  cases member

/-- What is supplied on every way certifies the code of a block. -/
theorem Grounded.covered (grounded : function.Grounded) {before rest : List Instr}
    (split : function.code id = before ++ rest) (shaped : Shaped rest) :
    Covered function.suppliedAt (supplied (function.suppliedAt id) before) rest := by
  induction rest generalizing before with
  | nil => trivial
  | cons use rest ih =>
      obtain ⟨last, later⟩ := shaped_cons.mp shaped
      -- what no instruction of the block supplies is supplied on every way to it
      have held : ∀ supply, (∀ passed, function.Trail id passed →
          ∃ instr ∈ passed ++ before, supply ∈ instr.supplies) →
          supply ∈ supplied (function.suppliedAt id) before := by
        intro supply given
        by_cases here : ∃ instr ∈ before, supply ∈ instr.supplies
        · exact .inr here
        · refine .inl fun passed trail => ?_
          obtain ⟨instr, member, supplies⟩ := given passed trail
          rcases List.mem_append.mp member with earlier | within
          · exact ⟨instr, earlier, supplies⟩
          · exact absurd ⟨instr, within, supplies⟩ here
      refine ⟨fun supply asked => held supply fun passed trail => ?_,
        fun target aims supply given => held supply fun passed trail => ?_, ?_⟩
      · refine (grounded.dominated id passed trail).suppliedFirst (grounded.filled id passed trail)
          (passed ++ before) use rest ?_ supply asked
        rw [split, List.append_assoc]
      · have jump : target.id ∈ function.targetsOf id := by
          rw [targetsOf, split]
          exact mem_targetIds.mpr ⟨use, by simp, target, aims, rfl⟩
        have terminator : use.isTerminator = true := by
          by_contra inner
          rw [Instr.targets_eq_nil (by simpa using inner)] at aims
          cases aims
        obtain rfl : rest = [] := by
          by_contra more
          rw [last more] at terminator
          cases terminator
        obtain ⟨instr, member, supplies⟩ := given _ (trail.step jump)
        rw [split, ← List.append_assoc] at member
        rcases List.mem_append.mp member with earlier | isUse
        · exact ⟨instr, earlier, supplies⟩
        · rw [List.mem_singleton.mp isUse, Instr.supplies_eq_nil terminator] at supplies
          cases supplies
      · rw [← supplied_append]
        exact ih (by simpa using split) later

end Function

/-! ### Types -/

section Typing

variable {function : Function} {interface : Interface} {instr : Instr} {value : Value}
  {type : BasicType}

theorem BinaryOpcode.result?_of_operator {opcode : BinaryOpcode} {operator : TokenKind}
    (listed : Lowering.binaryOpcode? type operator = some opcode) :
    opcode.result? type = some (if opcode.isComparison then .bool else type) := by
  unfold Lowering.binaryOpcode? at listed
  split at listed <;> cases listed <;> rfl

theorem UnaryOpcode.result?_of_operator {opcode : UnaryOpcode} {operator : TokenKind}
    (listed : Lowering.unaryOpcode? type operator = some opcode) :
    opcode.result? type = some type := by
  unfold Lowering.unaryOpcode? at listed
  split at listed <;> cases listed <;> rfl

section Instructions

variable (grounded : function.Grounded) (inRange : function.InRange interface.texts)
  (member : instr ∈ function.instrs)
include grounded member

/-- What an instruction reads is defined in its function. -/
theorem Function.Grounded.mem_results (read : value ∈ instr.operands)
    (isLocal : value.isLocal = true) :
    value ∈ function.results := by
  obtain ⟨earlier, later, split⟩ := List.append_of_mem member
  obtain ⟨definition, before, isResult⟩ :=
    grounded.ordered earlier instr later split value read isLocal
  exact List.mem_filterMap.mpr ⟨definition, split ▸ List.mem_append_left _ before, isResult⟩

include inRange

/-- An operand that yields values has their type. -/
theorem Value.Yields.hasType (read : value ∈ instr.operands) (yields : value.Yields type) :
    value.HasType function interface type := by
  have within := inRange instr member value read
  cases value with
  | constant content => exact ⟨yields.1, within, yields.2⟩
  | param place => exact ⟨yields.1, grounded.params_own instr member place read, yields.2⟩
  | temp result => exact ⟨yields.1, grounded.mem_results member read rfl, yields.2⟩
  | string index => exact ⟨yields.1, within, yields.2.symm⟩
  | slot | stray => exact yields.elim

theorem Value.hasTypes {arguments : List Value} {types : List BasicType}
    (read : arguments ⊆ instr.operands) (same : arguments.map Value.type = types)
    (yields : ∀ value ∈ arguments, value.Yields value.type) :
    List.Forall₂ (fun value type => value.HasType function interface type) arguments types := by
  subst same
  rw [List.forall₂_map_right_iff, List.forall₂_same]
  exact fun value given => (yields value given).hasType grounded inRange member (read given)

/-- Well-typed code whose operands are defined and in range has typed operands. -/
theorem Instr.WellTyped.typed (typed : instr.WellTyped interface function.result)
    (valid : ∀ name signature, interface.signature? name = some signature →
      signature.result ≠ .invalid) :
    instr.Typed function interface := by
  have operand : ∀ {value : Value} {type : BasicType}, value ∈ instr.operands → value.Yields type →
      value.HasType function interface type := fun read yields =>
    yields.hasType grounded inRange member read
  have address : ∀ {value : Value} {type : BasicType}, value ∈ instr.operands → value.Holds type →
      ∃ place, value = .slot place ∧ Value.slot place ∈ function.results ∧ place.type = type := by
    intro value type read holds
    cases value with
    | slot place => exact ⟨place, rfl, grounded.mem_results member read rfl, holds.2⟩
    | constant | param | temp | string | stray => exact holds.elim
  cases instr with
  | binary opcode dest left right =>
      obtain ⟨type, operator, leftYields, rightYields, listed, destType⟩ := typed
      refine ⟨type, operand (by simp [operands]) leftYields,
        operand (by simp [operands]) rightYields, ?_⟩
      rw [BinaryOpcode.result?_of_operator listed, destType]
  | unary opcode dest value =>
      obtain ⟨operator, yields, listed⟩ := typed
      exact ⟨_, operand List.mem_cons_self yields, UnaryOpcode.result?_of_operator listed⟩
  | copy dest value => exact operand List.mem_cons_self typed
  | alloca place => exact typed
  | load dest value =>
      obtain ⟨place, rfl, made, same⟩ := address List.mem_cons_self typed
      exact ⟨place, rfl, made, same.symm⟩
  | store slot value =>
      obtain ⟨type, holds, yields⟩ := typed
      obtain ⟨place, rfl, made, rfl⟩ := address List.mem_cons_self holds
      exact ⟨place, rfl, made, operand (by simp [operands]) yields⟩
  | call dest callee arguments =>
      obtain ⟨linkage, name⟩ := callee
      cases linkage with
      | defined =>
          obtain ⟨signature, found, types, yields, kept⟩ := typed
          refine ⟨signature, found,
            Value.hasTypes grounded inRange member (List.Subset.refl _) types yields, ?_, ?_⟩
          · rintro temp rfl
            split at kept
            · cases kept
            · rename_i notVoid
              exact ⟨Option.some.inj kept, notVoid, valid name signature found⟩
          · intro notVoid
            rw [if_neg notVoid] at kept
            obtain ⟨temp, rfl, -⟩ := Option.map_eq_some_iff.mp kept
            rfl
      | external =>
          obtain ⟨isFormatter, noDest, format, value, type, rfl, formatYields, valueYields, -⟩ :=
            typed
          exact ⟨isFormatter, noDest, format, value, type, rfl,
            operand (by simp [operands]) formatYields,
            operand (by simp [operands]) valueYields⟩
      | unknown => exact typed
  | jump target => trivial
  | branch condition ifTrue ifFalse => exact operand List.mem_cons_self typed
  | ret value =>
      cases value with
      | none => exact typed
      | some value => exact operand List.mem_cons_self typed.2

end Instructions

end Typing

/-! ### Functions -/

/-- No pass makes results. -/
theorem results_rewriting : Rewriting fun function other => other.results ⊆ function.results where
  refl _ := List.Subset.refl _
  trans first second := fun _ member => first (second member)
  folding function := by
    intro value made
    obtain ⟨instr, member, isResult⟩ := List.mem_filterMap.mp made
    obtain ⟨original, within, folds⟩ := exists_of_forall₂ function.instrs_foldConstants member
    exact List.mem_filterMap.mpr
      ⟨original, within, (Instr.Folds.result?_eq folds).symm.trans isResult⟩
  deadCode function := List.filterMap_subset _ function.eliminateDeadCode_trims.instrs_subset

/-- A function with the head of a sound one is sound if it is foldable and well typed and makes no
results of its own. -/
theorem Function.Foldable.sound {function other : Function} {known : Callee → Bool}
    {interface : Interface} (foldable : other.Foldable known interface.texts)
    (typed : ∀ instr ∈ other.instrs, instr.WellTyped interface other.result)
    (valid : ∀ name signature, interface.signature? name = some signature →
      signature.result ≠ .invalid)
    (origin : function.Sound interface) (head : function.SameHead other)
    (results : other.results ⊆ function.results)
    (labels : (other.blocks.map fun block => block.name.label).Nodup) : other.Sound interface where
  blocks_nodup := foldable.wired.unique
  labels_nodup := labels
  entry_isSome := foldable.wired.entry_isSome
  params_id := head.params_eq ▸ origin.params_id
  params_nodup := head.params_eq ▸ origin.params_nodup
  results_nodup := (List.nodup_append.mp foldable.grounded.defined_once).2.1
  results_fresh := fun value made id isId =>
    head.params_eq ▸ origin.results_fresh value (results made) id isId
  typed := fun instr member =>
    (typed instr member).typed foldable.grounded foldable.inRange member valid
  covered := by
    refine ⟨other.suppliedAt, suppliedAt_entry, fun block member => ?_⟩
    have formed := (violations_eq_nil_iff.mp foldable.wellFormed).1 block member
    have found := block?_of_mem foldable.wired.unique member
    have covered :
      Covered other.suppliedAt (supplied (other.suppliedAt block.name.id) []) block.instrs :=
      foldable.grounded.covered (code_eq found) formed.shaped
    rwa [supplied_nil] at covered

theorem foldable_rewriting (known : Callee → Bool) (texts : Nat) :
    Rewriting fun function other => function.Foldable known texts → other.Foldable known texts where
  refl _ foldable := foldable
  trans first second foldable := second (first foldable)
  folding _ foldable := foldable.foldConstants
  deadCode _ foldable := foldable.eliminateDeadCode

/-- **Behind an optimizer functions are sound.** -/
theorem Optimizer.optimize_sound {module : Module} {known : Callee → Bool} (sound : module.Sound)
    (orderly : ∀ function ∈ module.functions, function.Orderly known) (typed : module.WellTyped)
    (valid : ∀ function ∈ module.functions, function.result ≠ .invalid) (optimizer : Optimizer)
    (labels : ∀ function ∈ (optimizer.optimize module).1.functions,
      (function.blocks.map fun block => block.name.label).Nodup) :
    (optimizer.optimize module).1.Sound := by
  intro other member
  have interface := optimizer.interface_optimize module
  have signatures : ∀ name signature, module.interface.signature? name = some signature →
      signature.result ≠ .invalid := by
    intro name signature found
    obtain ⟨function, isFunction, rfl⟩ := Option.map_eq_some_iff.mp found
    exact valid function (List.mem_of_find?_eq_some isFunction)
  have related := List.Forall₂.mp (fun _ _ => And.intro)
    ((foldable_rewriting known module.interface.texts).optimize optimizer module)
    (List.Forall₂.mp (fun _ _ => And.intro) (sameHead_rewriting.optimize optimizer module)
      (results_rewriting.optimize optimizer module))
  obtain ⟨function, within, keeps, head, results⟩ := exists_of_forall₂ related member
  have origin := sound function within
  obtain ⟨types, otherTyped⟩ := typed.optimize optimizer other member
  rw [interface] at otherTyped ⊢
  exact (keeps ⟨orderly function within, origin.inRange⟩).sound
    (fun instr there => (otherTyped.instrs instr there).typed) signatures origin head results
    (labels other member)

end ScriptCompiler.IR
