import ScriptCompiler.Proofs.Lowering.FunctionCourse
import ScriptCompiler.Proofs.Lowering.Labels

/-!
# Finished functions

Labels of blocks are unique, because none of the labels that lowering asks for ends in a digit.  So
a finished function is sound (`Draft.Sound.function_sound`), and it is well formed exactly if it has
no terminator before the end of a block (`Finished.violations_iff`).
-/

namespace ScriptCompiler.Lowering

open IR

variable {signature? : Bytes → Option Signature} {before after : Draft}

section Labels

theorem blockLabels_last {label : Bytes} (listed : label ∈ blockLabels) :
    ∀ byte ∈ label.getLast?, ¬ Bytes.IsDigit byte := by
  have all : blockLabels.all fun label =>
      label.getLast?.all fun byte => !decide (Bytes.IsDigit byte) := by
    decide
  intro byte last
  simpa [Option.mem_def.mp last] using List.all_eq_true.mp all label listed

theorem requestedLabels_nodup {requests : List Bytes}
    (listed : ∀ label ∈ requests, label ∈ blockLabels) : (requestedLabels requests).Nodup := by
  refine requestedLabels_nodup_iff.mpr fun label earlier positive _ asked => ?_
  obtain ⟨number, rfl⟩ := Nat.exists_eq_succ_of_ne_zero positive.ne'
  -- What is written with a number ends in a digit.
  obtain ⟨byte, last, digit⟩ := Bytes.getLast?_append_ofNat (label ++ ".") (number + 1)
  exact blockLabels_last (listed _ asked) byte last digit

end Labels

/-- The code of a sound draft is sound once the names of the parameters are unique. -/
theorem Draft.Sound.function_sound (sound : before.Sound signature?)
    (names : (before.state.function.params.map Place.name).Nodup) :
    before.state.function.Sound (before.state.interface signature?) where
  blocks_nodup := sound.numbered.nodup
  labels_nodup := sound.labels ▸ requestedLabels_nodup sound.requests_listed
  entry_isSome :=
    sound.numbered.block?_isSome.mpr (Nat.lt_of_le_of_lt (Nat.zero_le _) sound.current_lt)
  params_id := sound.params_id
  params_nodup := names
  results_nodup := sound.results_nodup
  results_fresh := fun value member id isId => (sound.results_range value member id isId).1
  typed := sound.typed
  covered := by
    refine ⟨before.known, sound.start, fun block member => ?_⟩
    have code := Function.code_eq (Function.block?_of_mem sound.numbered.nodup member)
    exact code ▸ sound.covered block.name.id

/-- A finished function is well formed if no block has a terminator before its end. -/
theorem Finished.violations_iff (finished : Finished signature? before after)
    (sound : before.Sound signature?) {known : Callee → Bool}
    (defined : ∀ name signature, signature? name = some signature → known ⟨.defined, name⟩ = true)
    (external : formatter ∈ after.state.externals →
      known ⟨.external, formatter.name⟩ = true) :
    after.state.function.violations known = [] ↔ after.state.Shaped := by
  have sound' := sound.moves finished.moves
  rw [Function.violations_eq_nil_iff]
  constructor
  · rintro ⟨wellFormed, -⟩ id
    cases found : after.state.function.block? id with
    | none => simp [Function.code, found, IR.Shaped]
    | some block =>
        rw [Function.code_eq found]
        exact (wellFormed block (Function.mem_of_block? found)).shaped
  · intro shaped
    refine ⟨fun block member => ?_, sound'.predecessors⟩
    have there := Function.block?_of_mem sound'.numbered.nodup member
    refine ⟨finished.terminated sound member, Function.code_eq there ▸ shaped block.name.id, ?_, ?_⟩
    · intro instr within target aims
      exact sound'.numbered.block?_isSome.mpr (sound'.targets _ _ there instr within target aims).1
    · intro instr within callee isCallee
      have member' : instr ∈ after.state.function.instrs :=
        List.mem_flatMap.mpr ⟨block, member, within⟩
      have typed := sound'.typed instr member'
      have externals := sound'.externals instr member' callee isCallee
      cases instr with
      | call dest target arguments =>
          obtain rfl : target = callee := Option.some.inj isCallee
          obtain ⟨linkage, name⟩ := target
          cases linkage with
          | defined =>
              obtain ⟨signature, isKnown, -⟩ := typed
              exact defined name signature isKnown
          | external =>
              obtain ⟨rfl, -⟩ := typed
              exact external (externals rfl)
          | unknown => exact typed.elim
      | _ => cases isCallee

end ScriptCompiler.Lowering
