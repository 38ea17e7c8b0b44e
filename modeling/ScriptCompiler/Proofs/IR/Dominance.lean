import ScriptCompiler.Proofs.IR.ControlFlow
import ScriptCompiler.Proofs.IR.Soundness

/-!
# Definitions dominate uses

A trail is what control passes on a way from the entry to the beginning of a block.  A function is
grounded if every number has one definition and if, in the order of blocks as well as along every
trail, operands are defined before they are used and slots are filled before they are loaded.
-/

namespace ScriptCompiler.IR

/-- A value that an instruction defines: a result or a slot. -/
def Value.isLocal : Value → Bool
  | .temp _ | .slot _ => true
  | _ => false

/-- In a list of instructions every operand is defined before it is used. -/
def DefinedFirst (instrs : List Instr) : Prop :=
  ∀ earlier use later, instrs = earlier ++ use :: later →
    ∀ value ∈ use.operands, value.isLocal = true → ∃ definition ∈ earlier, definition.result? =
      some value

/-- In a list of instructions every slot is filled before it is loaded. -/
def FilledFirst (instrs : List Instr) : Prop :=
  ∀ earlier dest address later, instrs = earlier ++ .load dest address :: later →
    ∃ place content, address = .slot place ∧ .store address content ∈ earlier

/-- The instructions that control passes on a way from the entry to the beginning of a block. -/
inductive Function.Trail (function : Function) : Nat → List Instr → Prop where
  /-- At the entry nothing has been passed. -/
  | start : Trail function entry []
  /-- From a block control goes on to a target of its code. -/
  | step {source target : Nat} {passed : List Instr} (earlier : Trail function source passed)
      (jump : target ∈ function.targetsOf source) :
      Trail function target (passed ++ function.code source)

/-- Every number is defined once, and definitions dominate uses. -/
structure Function.Grounded (function : Function) : Prop where
  /-- Every number is that of one parameter or of the result of one instruction. -/
  defined_once : (function.params.map Place.id ++ function.results.filterMap Value.id?).Nodup
  /-- Parameters that are read are those of the function. -/
  params_own : ∀ use ∈ function.instrs, ∀ place, .param place ∈ use.operands →
    place ∈ function.params
  /-- Definitions come first in the order of blocks and instructions. -/
  ordered : DefinedFirst function.instrs
  /-- They come first on every way from the entry. -/
  dominated : ∀ id passed, function.Trail id passed → DefinedFirst (passed ++ function.code id)
  /-- Slots are filled on every way from the entry to a load. -/
  filled : ∀ id passed, function.Trail id passed → FilledFirst (passed ++ function.code id)

/-- In a list of instructions everything that is asked for is supplied before. -/
def SuppliedFirst (instrs : List Instr) : Prop :=
  ∀ earlier use later, instrs = earlier ++ use :: later →
    ∀ supply ∈ use.demands, ∃ instr ∈ earlier, supply ∈ instr.supplies

section Supplies

variable {known : Nat → Set Supply} {held : Set Supply} {passed instrs : List Instr}

theorem suppliedFirst_append_singleton {use : Instr} (first : SuppliedFirst passed)
    (demands : ∀ supply ∈ use.demands, ∃ instr ∈ passed, supply ∈ instr.supplies) :
    SuppliedFirst (passed ++ [use]) := by
  intro earlier other later split
  rcases List.eq_nil_or_concat later with rfl | ⟨init, last, rfl⟩
  · obtain ⟨rfl, same⟩ := List.append_inj' split rfl
    obtain ⟨rfl, -⟩ := List.cons.inj same
    exact demands
  · rw [List.concat_eq_append, ← List.cons_append, ← List.append_assoc] at split
    obtain ⟨rfl, -⟩ := List.append_inj' split rfl
    exact first earlier other init rfl

/-- Covered code behind instructions that supply what it starts with. -/
theorem SuppliedFirst.append (first : SuppliedFirst passed)
    (holds : ∀ supply ∈ held, ∃ instr ∈ passed, supply ∈ instr.supplies)
    (covered : Covered known held instrs) : SuppliedFirst (passed ++ instrs) := by
  induction instrs generalizing passed held with
  | nil => rwa [List.append_nil]
  | cons instr rest ih =>
      obtain ⟨demands, -, later⟩ := covered
      have next := suppliedFirst_append_singleton first fun supply asked =>
        holds supply (demands supply asked)
      rw [List.append_cons]
      refine ih next ?_ later
      rintro supply (old | ⟨other, isInstr, given⟩)
      · obtain ⟨other, member, given⟩ := holds supply old
        exact ⟨other, List.mem_append_left _ member, given⟩
      · obtain rfl := List.mem_singleton.mp isInstr
        exact ⟨other, List.mem_append_right _ (List.mem_singleton_self _), given⟩

/-- What the target of covered code starts with has been supplied before the jump. -/
theorem Covered.target_subset {target : Nat} (covered : Covered known held instrs)
    (jump : target ∈ targetIds instrs) : known target ⊆ supplied held instrs := by
  obtain ⟨instr, member, name, aims, rfl⟩ := mem_targetIds.mp jump
  obtain ⟨before, behind, rfl⟩ := List.append_of_mem member
  obtain ⟨-, -, targets, -⟩ := covered_append.mp covered
  intro supply starts
  rcases targets name aims starts with old | ⟨other, within, given⟩
  · exact .inl old
  · exact .inr ⟨other, List.mem_append_left _ within, given⟩

end Supplies

section Definitions

variable {function : Function} {interface : Interface} {instr : Instr} {value : Value}

/-- What reading a value asks for, the address of a slot included. -/
def Value.supply? : Value → Option Supply
  | .temp result => some (.result result.id)
  | .slot place => some (.slot place.id)
  | _ => none

theorem Value.isLocal_iff : value.isLocal = true ↔ ∃ supply, value.supply? = some supply := by
  cases value <;> simp [isLocal, supply?]

/-- Who supplies a value defines its number. -/
theorem Instr.defines_of_supplies {supply : Supply} (isSupply : value.supply? = some supply)
    (given : supply ∈ instr.supplies) :
    ∃ id result, value.id? = some id ∧ instr.result? = some result ∧ result.id? = some id := by
  cases value with
  | temp result =>
      cases isSupply
      refine ⟨result.id, ?_⟩
      cases instr with
      | binary | unary | copy | load =>
          exact ⟨_, rfl, rfl, by simpa [supplies, Value.id?, eq_comm] using given⟩
      | call dest callee arguments =>
          cases dest with
          | none => simp [supplies] at given
          | some temp => exact ⟨_, rfl, rfl, by simpa [supplies, Value.id?, eq_comm] using given⟩
      | store address content => cases address <;> simp [supplies] at given
      | alloca | jump | branch | ret => simp [supplies] at given
  | slot place =>
      cases isSupply
      refine ⟨place.id, ?_⟩
      cases instr with
      | alloca own => exact ⟨_, rfl, rfl, by simpa [supplies, Value.id?, eq_comm] using given⟩
      | store address content => cases address <;> simp [supplies] at given
      | binary | unary | copy | load | call | jump | branch | ret => simp [supplies] at given
  | constant | param | string | stray => cases isSupply

theorem Instr.store_of_supplies {id : Nat} (given : Supply.content id ∈ instr.supplies) :
    ∃ place content, instr = .store (.slot place) content ∧ place.id = id := by
  cases instr with
  | store address content =>
      cases address with
      | slot place => exact ⟨place, content, rfl, by simpa [supplies, eq_comm] using given⟩
      | constant | param | temp | string | stray => simp [supplies] at given
  | alloca | binary | unary | copy | load | call | jump | branch | ret => simp [supplies] at given

/-- An operand is read for its value, or it is the slot of a load or a store. -/
theorem Instr.Typed.operand (typed : instr.Typed function interface)
    (read : value ∈ instr.operands) :
    (∃ type, value.HasType function interface type ∧ ∀ supply ∈ value.demands,
      supply ∈ instr.demands) ∨
      ∃ place, value = .slot place ∧ value ∈ function.results ∧
        (.slot place.id ∈ instr.demands ∨ ∃ dest, instr = .load dest value) := by
  have plain : ∀ {type : BasicType}, value.HasType function interface type →
      instr.demands = instr.operands.flatMap Value.demands →
      ∃ type, value.HasType function interface type ∧ ∀ supply ∈ value.demands,
        supply ∈ instr.demands :=
    fun {type} valueTyped same => ⟨type, valueTyped, fun supply asked =>
      same ▸ List.mem_flatMap.mpr ⟨value, read, asked⟩⟩
  cases instr with
  | binary opcode dest left right =>
      obtain ⟨type, leftTyped, rightTyped, -⟩ := typed
      rcases List.mem_cons.mp read with rfl | later
      · exact .inl (plain leftTyped rfl)
      · obtain rfl := List.mem_singleton.mp later
        exact .inl (plain rightTyped rfl)
  | unary opcode dest operand =>
      obtain ⟨type, operandTyped, -⟩ := typed
      obtain rfl := List.mem_singleton.mp read
      exact .inl (plain operandTyped rfl)
  | copy dest content =>
      obtain rfl := List.mem_singleton.mp read
      exact .inl (plain typed rfl)
  | alloca place => cases read
  | load dest address =>
      obtain ⟨place, rfl, member, -⟩ := typed
      obtain rfl := List.mem_singleton.mp read
      exact .inr ⟨place, rfl, member, .inr ⟨dest, rfl⟩⟩
  | store address content =>
      obtain ⟨place, rfl, member, contentTyped⟩ := typed
      rcases List.mem_cons.mp read with rfl | later
      · exact .inr ⟨place, rfl, member, .inl List.mem_cons_self⟩
      · obtain rfl := List.mem_singleton.mp later
        exact .inl ⟨_, contentTyped, fun _ asked => List.mem_cons_of_mem _ asked⟩
  | call dest callee arguments =>
      obtain ⟨linkage, name⟩ := callee
      cases linkage with
      | defined =>
          obtain ⟨signature, -, argumentsTyped, -⟩ := typed
          obtain ⟨type, -, argumentTyped⟩ := exists_of_forall₂ argumentsTyped.flip read
          exact .inl (plain argumentTyped rfl)
      | external =>
          obtain ⟨-, -, format, shown, type, rfl, formatTyped, shownTyped⟩ := typed
          rcases List.mem_cons.mp read with rfl | later
          · exact .inl (plain formatTyped rfl)
          · obtain rfl := List.mem_singleton.mp later
            exact .inl (plain shownTyped rfl)
      | unknown => exact typed.elim
  | jump target => cases read
  | branch condition ifTrue ifFalse =>
      obtain rfl := List.mem_singleton.mp read
      exact .inl (plain typed rfl)
  | ret returned =>
      cases returned with
      | none => cases read
      | some content =>
          obtain rfl := List.mem_singleton.mp read
          exact .inl (plain typed rfl)

/-- What an instruction reads is defined in its function, and is asked for unless it is the slot of
a load. -/
theorem Instr.Typed.supply (typed : instr.Typed function interface) (read : value ∈ instr.operands)
    {supply : Supply} (isSupply : value.supply? = some supply) :
    value ∈ function.results ∧ (supply ∈ instr.demands ∨ ∃ dest, instr = .load dest value) := by
  rcases typed.operand read with ⟨type, ⟨-, denotes⟩, asks⟩ | ⟨place, rfl, member, asks⟩
  · cases value with
    | temp =>
        cases isSupply
        exact ⟨denotes.1, .inl (asks _ (List.mem_singleton_self _))⟩
    | slot => exact denotes.elim
    | constant | param | string | stray => cases isSupply
  · cases isSupply
    exact ⟨member, asks⟩

/-- A parameter that is read is one of the function. -/
theorem Instr.Typed.param (typed : instr.Typed function interface) {place : Place}
    (read : .param place ∈ instr.operands) : place ∈ function.params := by
  rcases typed.operand read with ⟨type, ⟨-, denotes⟩, -⟩ | ⟨slot, same, -⟩
  · exact denotes.1
  · cases same

/-- In sound code that supplies what it asks for, definitions come before uses and slots are filled
before they are loaded. -/
theorem SuppliedFirst.definedFirst {instrs : List Instr} (first : SuppliedFirst instrs)
    (sound : function.Sound interface) (subset : ∀ instr ∈ instrs, instr ∈ function.instrs) :
    DefinedFirst instrs ∧ FilledFirst instrs := by
  have result : ∀ {instr : Instr} {value : Value}, instr ∈ instrs → instr.result? = some value →
      value ∈ function.results := fun member isResult =>
    List.mem_filterMap.mpr ⟨_, subset _ member, isResult⟩
  -- who supplies a value of the function defines it
  have defines : ∀ {earlier later : List Instr} {value : Value} {supply : Supply},
      instrs = earlier ++ later → value ∈ function.results → value.supply? = some supply →
      (∃ instr ∈ earlier, supply ∈ instr.supplies) →
      ∃ definition ∈ earlier, definition.result? = some value := by
    rintro earlier later value supply split member isSupply ⟨definition, within, given⟩
    obtain ⟨id, other, isId, isResult, otherId⟩ := Instr.defines_of_supplies isSupply given
    have listed : definition ∈ instrs := split ▸ List.mem_append_left _ within
    rw [sound.eq_of_id (result listed isResult) member otherId isId] at isResult
    exact ⟨definition, within, isResult⟩
  have filled : FilledFirst instrs := by
    intro earlier dest address later split
    have member : Instr.load dest address ∈ instrs := by simp [split]
    obtain ⟨place, rfl, slot, -⟩ := sound.typed _ (subset _ member)
    obtain ⟨store, within, given⟩ := first _ _ _ split _ (List.mem_singleton_self _)
    obtain ⟨other, content, rfl, sameId⟩ := Instr.store_of_supplies given
    have stored : Instr.store (.slot other) content ∈ instrs :=
      split ▸ List.mem_append_left _ within
    obtain ⟨third, same, otherSlot, -⟩ := sound.typed _ (subset _ stored)
    cases same
    have equal := sound.eq_of_id otherSlot slot (congrArg some sameId) rfl
    exact ⟨place, content, rfl, equal ▸ within⟩
  refine ⟨fun earlier use later split value read isLocal => ?_, filled⟩
  obtain ⟨supply, isSupply⟩ := Value.isLocal_iff.mp isLocal
  have member : use ∈ instrs := by simp [split]
  obtain ⟨known, asked | ⟨dest, rfl⟩⟩ := (sound.typed use (subset use member)).supply read isSupply
  · exact defines split known isSupply (first earlier use later split supply asked)
  · -- the slot of a load has been filled, and a store asks for its slot
    obtain ⟨place, content, rfl, within⟩ := filled earlier dest value later split
    obtain ⟨before, behind, rfl⟩ := List.append_of_mem within
    cases isSupply
    have again : instrs = before ++ (.store (.slot place) content :: behind ++
        .load dest (.slot place) :: later) := by rw [split, List.append_assoc]
    obtain ⟨definition, there, isResult⟩ := defines again known rfl
      (first before _ _ again (.slot place.id) List.mem_cons_self)
    exact ⟨definition, List.mem_append_left _ there, isResult⟩

end Definitions

namespace Function

variable {function : Function} {interface : Interface}

theorem Trail.subset {id : Nat} {passed : List Instr} (trail : function.Trail id passed) :
    ∀ instr ∈ passed, instr ∈ function.instrs := by
  induction trail with
  | start => simp
  | step _ _ ih =>
      intro instr member
      rcases List.mem_append.mp member with before | now
      · exact ih instr before
      · exact mem_instrs_of_code now

/-- Along a trail everything that is asked for is supplied before. -/
theorem suppliedFirst_trail {known : Nat → Set Supply} (start : known entry = ∅)
    (covered : ∀ id, Covered known (known id) (function.code id)) {id : Nat} {passed : List Instr}
    (trail : function.Trail id passed) :
    SuppliedFirst passed ∧ ∀ supply ∈ known id, ∃ instr ∈ passed, supply ∈ instr.supplies := by
  induction trail with
  | start => exact ⟨fun earlier use later split => by simp at split, by simp [start]⟩
  | @step source target passed _ jump ih =>
      obtain ⟨first, holds⟩ := ih
      refine ⟨first.append holds (covered source), fun supply starts => ?_⟩
      rcases (covered source).target_subset jump starts with old | ⟨instr, within, given⟩
      · obtain ⟨instr, member, given⟩ := holds supply old
        exact ⟨instr, List.mem_append_left _ member, given⟩
      · exact ⟨instr, List.mem_append_right _ within, given⟩

/-- In a sound function every number is defined once. -/
theorem Sound.defined_once (sound : function.Sound interface) :
    (function.params.map Place.id ++ function.results.filterMap Value.id?).Nodup := by
  have params : function.params.map Place.id = List.range function.params.length := by
    refine List.ext_getElem? fun index => ?_
    by_cases below : index < function.params.length
    · have there := List.getElem?_eq_getElem below
      rw [List.getElem?_map, there, Option.map_some, sound.params_id index _ there,
        List.getElem?_range below]
    · have beyond := Nat.le_of_not_lt below
      rw [List.getElem?_eq_none (by simpa using beyond),
        List.getElem?_eq_none (by simpa using beyond)]
  rw [params, List.nodup_append]
  refine ⟨List.nodup_range, sound.results_nodup, fun id isParam other isResult same => ?_⟩
  obtain ⟨value, member, isId⟩ := List.mem_filterMap.mp isResult
  have fresh := sound.results_fresh value member other isId
  have below := List.mem_range.mp isParam
  omega

/-- A sound function is grounded if what is asked for is supplied first in the order of blocks as
well. -/
theorem Sound.grounded (sound : function.Sound interface) {known : Nat → Set Supply}
    (start : known entry = ∅) (covered : ∀ id, Covered known (known id) (function.code id))
    (ordered : SuppliedFirst function.instrs) : function.Grounded := by
  have ways : ∀ {id passed}, function.Trail id passed →
      DefinedFirst (passed ++ function.code id) ∧ FilledFirst (passed ++ function.code id) := by
    intro id passed trail
    obtain ⟨first, holds⟩ := suppliedFirst_trail start covered trail
    refine (first.append holds (covered id)).definedFirst sound fun instr member => ?_
    rcases List.mem_append.mp member with before | now
    · exact trail.subset instr before
    · exact mem_instrs_of_code now
  exact
    { defined_once := sound.defined_once
      params_own := fun use member place read => (sound.typed use member).param read
      ordered := (ordered.definedFirst sound fun _ member => member).1
      dominated := fun id passed trail => (ways trail).1
      filled := fun id passed trail => (ways trail).2 }

end Function

end ScriptCompiler.IR
