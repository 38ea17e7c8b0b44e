import Mathlib.Data.List.Flatten
import ScriptCompiler.Proofs.IR.Dominance
import ScriptCompiler.Proofs.Optimize.ControlFlow
import ScriptCompiler.Proofs.Optimize.Typing

/-!
# Passes and definitions

The passes keep a grounded function grounded.  Folding only takes operands and ways away.  Dead code
elimination keeps what defines an operand that is left: it stands on every way to its use, so in a
block that can be reached, and its result is read; and it keeps the stores into slots that are
loaded.
-/

namespace ScriptCompiler.IR

/-! ### Folding -/

namespace Instr.Folds

variable {instr folded : Instr}

theorem result?_eq (folds : instr.Folds folded) : folded.result? = instr.result? := by
  obtain ⟨known, dropped, folds⟩ := folds
  cases folds with
  | computed result => exact (computed_operation result).2.2.symm
  | decided choice =>
      obtain ⟨_, _, _, _, rfl, -⟩ := decided_branch choice
      rfl
  | kept => exact Instr.result?_substituted

/-- Operands stay or become constants. -/
theorem mem_operands (folds : instr.Folds folded) {value : Value} (read : value ∈ folded.operands) :
    value ∈ instr.operands ∨ ∃ content, value = .constant content := by
  obtain ⟨known, dropped, folds⟩ := folds
  cases folds with
  | computed result => exact .inr ⟨_, List.mem_singleton.mp read⟩
  | decided choice => cases read
  | kept =>
      obtain ⟨original, given, rfl | rfl⟩ := Instr.mem_operands_substituted read
      · exact .inl given
      · unfold Value.replaced
        split
        · exact .inr ⟨_, rfl⟩
        · exact .inl given

/-- Loads stay as they are. -/
theorem load_eq (folds : instr.Folds folded) {dest : Temp} {address : Value}
    (isLoad : folded = .load dest address) : instr = .load dest address := by
  obtain ⟨known, dropped, folds⟩ := folds
  cases folds with
  | computed result => cases isLoad
  | decided choice => cases isLoad
  | kept =>
      cases instr with
      | load => exact isLoad
      | _ => cases isLoad

/-- Stores keep their addresses. -/
theorem store_eq (folds : instr.Folds folded) {address content : Value}
    (isStore : instr = .store address content) : ∃ content, folded = .store address content := by
  subst isStore
  obtain ⟨known, dropped, folds⟩ := folds
  cases folds with
  | computed result => cases result
  | decided choice => cases choice
  | kept => exact ⟨_, rfl⟩

end Instr.Folds

/-- A list relation can be followed to the left of a member. -/
theorem forall₂_split {α β : Type} {related : α → β → Prop} {whole : List α}
    {earlier later : List β}
    {item : β} (each : List.Forall₂ related whole (earlier ++ item :: later)) :
    ∃ before partner behind, whole = before ++ partner :: behind ∧
      List.Forall₂ related before earlier ∧ related partner item := by
  have front := List.forall₂_take_append _ _ _ each
  have back := List.forall₂_drop_append _ _ _ each
  obtain ⟨partner, behind, holds, -, split⟩ := List.forall₂_cons_right_iff.mp back
  exact ⟨_, partner, behind, by rw [← split, List.take_append_drop], front, holds⟩

section Lists

variable {instrs others : List Instr}

theorem DefinedFirst.folds (first : DefinedFirst instrs)
    (folds : List.Forall₂ Instr.Folds instrs others) :
    DefinedFirst others := by
  rintro earlier use later rfl value read isLocal
  obtain ⟨before, original, behind, split, fronts, here⟩ := forall₂_split folds
  rcases here.mem_operands read with kept | ⟨content, rfl⟩
  · obtain ⟨definition, within, isResult⟩ := first before original behind split value kept isLocal
    obtain ⟨folded, member, same⟩ := exists_of_forall₂ fronts.flip within
    exact ⟨folded, member, (Instr.Folds.result?_eq same).trans isResult⟩
  · cases isLocal

theorem FilledFirst.folds (first : FilledFirst instrs)
    (folds : List.Forall₂ Instr.Folds instrs others) :
    FilledFirst others := by
  rintro earlier dest address later rfl
  obtain ⟨before, original, behind, split, fronts, here⟩ := forall₂_split folds
  obtain rfl := here.load_eq rfl
  obtain ⟨place, content, isSlot, within⟩ := first before dest address behind split
  obtain ⟨folded, member, same⟩ := exists_of_forall₂ fronts.flip within
  obtain ⟨content', rfl⟩ := Instr.Folds.store_eq same rfl
  exact ⟨place, content', isSlot, member⟩

/-- Instructions can be taken away if what defines an operand that is left stays. -/
theorem DefinedFirst.filter {keep : Instr → Bool} (first : DefinedFirst instrs)
    (keeps : ∀ use ∈ instrs, ∀ value ∈ use.operands, ∀ definition : Instr,
      definition.result? = some value → keep definition = true) :
    DefinedFirst (instrs.filter keep) := by
  intro earlier use later split value read isLocal
  obtain ⟨before, rest, rfl, rfl, behind⟩ := List.filter_eq_append_iff.mp split
  obtain ⟨skipped, left, rfl, gone, -, -⟩ := List.filter_eq_cons_iff.mp behind
  obtain ⟨definition, within, isResult⟩ :=
    first (before ++ skipped) use left (by simp) value read isLocal
  have kept := keeps use (by simp) value read definition isResult
  refine ⟨definition, List.mem_filter.mpr ⟨?_, kept⟩, isResult⟩
  rcases List.mem_append.mp within with there | there
  · exact there
  · exact absurd kept (gone definition there)

theorem FilledFirst.filter {keep : Instr → Bool} (first : FilledFirst instrs)
    (keeps : ∀ dest place, .load dest (.slot place) ∈ instrs → ∀ content,
      keep (.store (.slot place) content) = true) : FilledFirst (instrs.filter keep) := by
  intro earlier dest address later split
  obtain ⟨before, rest, rfl, rfl, behind⟩ := List.filter_eq_append_iff.mp split
  obtain ⟨skipped, left, rfl, gone, -, -⟩ := List.filter_eq_cons_iff.mp behind
  obtain ⟨place, content, rfl, within⟩ := first (before ++ skipped) dest address left (by simp)
  have kept := keeps dest place (by simp) content
  refine ⟨place, content, rfl, List.mem_filter.mpr ⟨?_, kept⟩⟩
  rcases List.mem_append.mp within with there | there
  · exact there
  · exact absurd kept (gone _ there)

/-- Part of the code keeps its order if every number has one definition and the definitions of what
is left are left. -/
theorem DefinedFirst.sublist (first : DefinedFirst instrs) (part : others.Sublist instrs)
    (once : ((instrs.filterMap Instr.result?).filterMap Value.id?).Nodup)
    (keeps : ∀ use ∈ others, ∀ value ∈ use.operands, value.isLocal = true →
      ∃ definition ∈ others, definition.result? = some value) : DefinedFirst others := by
  rintro earlier use later rfl value read isLocal
  obtain ⟨front, back, rfl, fronts, backs⟩ := List.append_sublist_iff.mp part
  obtain ⟨middle, end_, rfl, member, ends⟩ := List.cons_sublist_iff.mp backs
  obtain ⟨before, behind, rfl⟩ := List.append_of_mem member
  obtain ⟨definition, within, isResult⟩ :=
    first (front ++ before) use (behind ++ end_) (by simp) value read isLocal
  obtain ⟨kept, there, keptResult⟩ := keeps use (by simp) value read isLocal
  rcases List.mem_append.mp there with here | late
  · exact ⟨kept, here, keptResult⟩
  · -- the same number would be defined before its use and again from there on
    exfalso
    obtain ⟨id, isId⟩ : ∃ id, value.id? = some id := by
      cases value <;> first | exact ⟨_, rfl⟩ | cases isLocal
    have listed : ∀ {part : List Instr} {instr : Instr}, instr ∈ part → instr.result? = some value →
        id ∈ (part.filterMap Instr.result?).filterMap Value.id? := fun inside result =>
      List.mem_filterMap.mpr ⟨value, List.mem_filterMap.mpr ⟨_, inside, result⟩, isId⟩
    have again : kept ∈ use :: (behind ++ end_) := by
      rcases List.mem_cons.mp late with rfl | later_
      · exact List.mem_cons_self
      · exact List.mem_cons_of_mem _ (List.mem_append_right _ (ends.subset later_))
    have whole : front ++ (before ++ use :: behind ++ end_) =
        (front ++ before) ++ use :: (behind ++ end_) := by simp
    rw [whole, List.filterMap_append, List.filterMap_append, List.nodup_append] at once
    exact once.2.2 id (listed within isResult) id (listed again keptResult) rfl

end Lists

/-- What an instruction defines is the same place as itself. -/
theorem Instr.isSame_result {instr : Instr} {value : Value}
    (isResult : instr.result? = some value) :
    value.isSame value = true := by
  cases instr with
  | binary | unary | copy | load | alloca =>
      cases isResult
      simp [Value.isSame]
  | call dest callee arguments =>
      obtain ⟨temp, -, rfl⟩ := Option.map_eq_some_iff.mp isResult
      simp [Value.isSame]
  | store | jump | branch | ret => cases isResult

namespace Function

variable {function pruned : Function} {known : Callee → Bool} {id : Nat} {passed : List Instr}

/-! ### Ways -/

theorem Trail.reaches (trail : function.Trail id passed) : function.Reaches id := by
  induction trail with
  | start => exact .refl
  | step _ jump ih => exact ih.tail jump

theorem exists_trail (reaches : function.Reaches id) : ∃ passed, function.Trail id passed := by
  induction reaches with
  | refl => exact ⟨_, .start⟩
  | tail _ jump ih =>
      obtain ⟨passed, trail⟩ := ih
      exact ⟨_, trail.step jump⟩

section Folding

theorem instrs_removeEdges (edges : List (BlockName × BlockName)) (function : Function) :
    (function.removeEdges edges).instrs = function.instrs := by
  have same := map_blocks_removeEdges edges function Block.instrs fun _ _ _ => rfl
  rw [instrs, List.flatMap_def, same, instrs, List.flatMap_def]

theorem code_foldConstants (function : Function) (id : Nat) :
    List.Forall₂ Instr.Folds (function.code id) (function.foldConstants.1.code id) := by
  have same : function.foldConstants.1.code id =
      code { function with blocks := (Folding.onBlocks {} function.blocks).2.1 } id :=
    code_removeEdges _ _
  have each : Option.Rel Block.Folded (function.block? id)
      (block? { function with blocks := (Folding.onBlocks {} function.blocks).2.1 } id) :=
    block?_forall₂ (Folding.onBlocks_forall₂ {} function.blocks) fun _ _ folds => folds.name_eq
  rw [same]
  unfold code
  generalize function.block? id = block at each
  generalize block? _ id = partner at each
  cases each with
  | none => exact .nil
  | some folds => exact folds.instrs

theorem instrs_foldConstants (function : Function) :
    List.Forall₂ Instr.Folds function.instrs function.foldConstants.1.instrs := by
  have same : function.foldConstants.1.instrs =
      ((Folding.onBlocks {} function.blocks).2.1).flatMap Block.instrs :=
    instrs_removeEdges _ { function with blocks := (Folding.onBlocks {} function.blocks).2.1 }
  rw [same]
  exact List.rel_flatMap (Folding.onBlocks_forall₂ {} function.blocks) fun _ _ folds => folds.instrs

theorem Trail.of_foldConstants (trail : function.foldConstants.1.Trail id passed) :
    ∃ original, function.Trail id original ∧ List.Forall₂ Instr.Folds original passed := by
  induction trail with
  | start => exact ⟨[], .start, .nil⟩
  | @step source target _ _ jump ih =>
      obtain ⟨original, trail, folds⟩ := ih
      have code := function.code_foldConstants source
      refine ⟨_, trail.step ?_, List.rel_append folds code⟩
      obtain ⟨instr, within, name, aims, rfl⟩ := mem_targetIds.mp jump
      obtain ⟨old, there, known, dropped, folding⟩ := exists_of_forall₂ code within
      have kept := ((folding.mem_targets_iff name.id).mp (List.mem_map_of_mem aims)).1
      obtain ⟨aim, aims', same⟩ := List.mem_map.mp kept
      exact mem_targetIds.mpr ⟨old, there, aim, aims', same⟩

theorem Grounded.foldConstants (grounded : function.Grounded) :
    function.foldConstants.1.Grounded := by
  have instrs := function.instrs_foldConstants
  have head := function.foldConstants_head
  have results : function.foldConstants.1.results = function.results := by
    have same := map_eq_of_forall₂ Instr.result? instrs fun _ _ folds => folds.result?_eq
    have view : ∀ instrs : List Instr,
        instrs.filterMap Instr.result? = (instrs.map Instr.result?).filterMap fun result =>
          result := by
      intro instrs
      rw [List.filterMap_map]
      rfl
    rw [Function.results, view, same, ← view, Function.results]
  refine ⟨?_, ?_, grounded.ordered.folds instrs, ?_, ?_⟩
  · rw [head.params_eq, results]
    exact grounded.defined_once
  · intro use member place read
    rw [head.params_eq]
    obtain ⟨original, within, folds⟩ := exists_of_forall₂ instrs member
    rcases folds.mem_operands read with kept | ⟨content, isConstant⟩
    · exact grounded.params_own original within place kept
    · cases isConstant
  · intro id passed trail
    obtain ⟨original, trail, folds⟩ := trail.of_foldConstants
    exact (grounded.dominated id original trail).folds
      (List.rel_append folds (function.code_foldConstants id))
  · intro id passed trail
    obtain ⟨original, trail, folds⟩ := trail.of_foldConstants
    exact (grounded.filled id original trail).folds
      (List.rel_append folds (function.code_foldConstants id))

end Folding

section DeadCode

theorem Trail.of_keepInstrs {keep : Instr → Bool}
    (keeps : ∀ instr, instr.isTerminator = true → keep instr = true)
    (trail : (function.keepInstrs keep).1.Trail id passed) :
    ∃ original, function.Trail id original ∧ passed = original.filter keep := by
  induction trail with
  | start => exact ⟨[], .start, rfl⟩
  | @step source target _ _ jump ih =>
      obtain ⟨original, trail, rfl⟩ := ih
      rw [targetsOf, code_keepInstrs, targetIds_filter _ keeps] at jump
      exact ⟨_, trail.step jump, by rw [code_keepInstrs, List.filter_append]⟩

theorem instrs_keepInstrs (function : Function) (keep : Instr → Bool) :
    (function.keepInstrs keep).1.instrs = function.instrs.filter keep := by
  rw [instrs, Function.keepInstrs, List.flatMap_map, instrs, List.filter_flatMap]

theorem mem_path_instrs (trail : function.Trail id passed) {instr : Instr}
    (member : instr ∈ passed ++ function.code id) : instr ∈ function.instrs := by
  rcases List.mem_append.mp member with before | now
  · exact trail.subset instr before
  · exact mem_instrs_of_code now

/-- Instructions can be taken away if what defines an operand and what fills a loaded slot stays. -/
theorem Grounded.keepInstrs (grounded : function.Grounded) {keep : Instr → Bool}
    (terminators : ∀ instr, instr.isTerminator = true → keep instr = true)
    (definitions : ∀ use ∈ function.instrs, ∀ value ∈ use.operands, ∀ definition : Instr,
      definition.result? = some value → keep definition = true)
    (stores : ∀ dest place, .load dest (.slot place) ∈ function.instrs → ∀ content,
      keep (.store (.slot place) content) = true) : (function.keepInstrs keep).1.Grounded := by
  refine ⟨?_, ?_, ?_, ?_, ?_⟩
  · refine List.Nodup.sublist ?_ grounded.defined_once
    refine List.Sublist.append (List.Sublist.refl _) (List.Sublist.filterMap _ ?_)
    rw [results, instrs_keepInstrs]
    exact List.filter_sublist.filterMap _
  · intro use member place read
    rw [instrs_keepInstrs] at member
    exact grounded.params_own use (List.mem_of_mem_filter member) place read
  · rw [instrs_keepInstrs]
    exact grounded.ordered.filter definitions
  · intro id passed trail
    obtain ⟨original, way, rfl⟩ := trail.of_keepInstrs terminators
    rw [code_keepInstrs, ← List.filter_append]
    exact (grounded.dominated id original way).filter fun use member =>
      definitions use (mem_path_instrs way member)
  · intro id passed trail
    obtain ⟨original, way, rfl⟩ := trail.of_keepInstrs terminators
    rw [code_keepInstrs, ← List.filter_append]
    exact (grounded.filled id original way).filter fun dest place member =>
      stores dest place (mem_path_instrs way member)

/-- What dropping blocks leaves of a function: the code of the blocks that can be reached. -/
theorem Wired.dropUnreachable_code (wired : function.Wired) :
    function.dropUnreachable.1.instrs.Sublist function.instrs ∧
      (∀ id, function.Reaches id → function.dropUnreachable.1.code id = function.code id) ∧
      ∀ id, ¬ function.Reaches id → function.dropUnreachable.1.code id = [] := by
  rcases wired.dropUnreachable_cases with ⟨same, all⟩ | ⟨live, reached, same⟩
  · rw [same]
    refine ⟨List.Sublist.refl _, fun _ _ => rfl, fun id lost => ?_⟩
    cases found : function.block? id with
    | none => simp [code, found]
    | some block => exact absurd (id_of_block? found ▸ all block (mem_of_block? found)) lost
  · rw [same]
    refine ⟨?_, fun id reaches => ?_, fun id lost => ?_⟩
    · rw [instrs_renumber]
      have whole := instrs_removeEdges
        (edgesOut (function.blocks.filter fun block => !live block.name.id)) function
      exact whole ▸ List.filter_sublist.flatMap Block.instrs
    · rw [code_restrict_renumber, if_pos ((reached id).mpr reaches)]
    · rw [code_restrict_renumber, if_neg fun alive => lost ((reached id).mp alive)]

/-- The ways that are left are ways of the function, with the same code. -/
theorem Wired.trail_of_dropUnreachable (wired : function.Wired)
    (trail : function.dropUnreachable.1.Trail id passed) : function.Trail id passed := by
  obtain ⟨-, kept, lost⟩ := wired.dropUnreachable_code
  induction trail with
  | start => exact .start
  | @step source target _ _ jump ih =>
      by_cases reaches : function.Reaches source
      · rw [targetsOf, kept source reaches] at jump
        rw [kept source reaches]
        exact ih.step jump
      · rw [targetsOf, lost source reaches] at jump
        cases jump

theorem Grounded.dropUnreachable (grounded : function.Grounded) (wired : function.Wired)
    (wellFormed : function.violations known = []) : function.dropUnreachable.1.Grounded := by
  obtain ⟨part, kept, lost⟩ := wired.dropUnreachable_code
  have head := function.dropUnreachable_trims.head
  have once : (function.results.filterMap Value.id?).Nodup :=
    (List.nodup_append.mp grounded.defined_once).2.1
  -- what control passes stays
  have stays : ∀ {id passed instr}, function.Trail id passed →
      instr ∈ passed ++ function.code id → instr ∈ function.dropUnreachable.1.instrs := by
    intro id passed instr trail member
    induction trail with
    | start =>
        rw [List.nil_append, ← kept entry .refl] at member
        exact mem_instrs_of_code member
    | @step source target passed earlier jump ih =>
        rcases List.mem_append.mp member with before | now
        · exact ih before
        · rw [← kept target (earlier.step jump).reaches] at now
          exact mem_instrs_of_code now
  refine ⟨?_, ?_, grounded.ordered.sublist part once ?_, ?_, ?_⟩
  · rw [head.params_eq]
    refine List.Nodup.sublist ?_ grounded.defined_once
    exact List.Sublist.append (List.Sublist.refl _) ((part.filterMap _).filterMap _)
  · intro use member place read
    rw [head.params_eq]
    exact grounded.params_own use (part.subset member) place read
  · intro use member value read isLocal
    have unique := (wired.dropUnreachable wellFormed).1.wired.unique
    obtain ⟨id, inside⟩ := (mem_instrs_iff unique).mp member
    by_cases reaches : function.Reaches id
    · rw [kept id reaches] at inside
      obtain ⟨passed, trail⟩ := exists_trail reaches
      obtain ⟨before, behind, split⟩ := List.append_of_mem inside
      obtain ⟨definition, within, isResult⟩ := grounded.dominated id passed trail (passed ++ before)
        use behind (by rw [split, List.append_assoc]) value read isLocal
      refine ⟨definition, stays trail ?_, isResult⟩
      rw [split, ← List.append_assoc]
      exact List.mem_append_left _ within
    · rw [lost id reaches] at inside
      cases inside
  · intro id passed trail
    by_cases reaches : function.Reaches id
    · rw [kept id reaches]
      exact grounded.dominated id passed (wired.trail_of_dropUnreachable trail)
    · exact absurd (wired.trail_of_dropUnreachable trail).reaches reaches
  · intro id passed trail
    by_cases reaches : function.Reaches id
    · rw [kept id reaches]
      exact grounded.filled id passed (wired.trail_of_dropUnreachable trail)
    · exact absurd (wired.trail_of_dropUnreachable trail).reaches reaches

theorem Grounded.dropDeadStores (grounded : function.Grounded) :
    function.dropDeadStores.1.Grounded := by
  refine grounded.keepInstrs (fun instr isTerminator => ?_) ?_ ?_
  · cases instr with
    | jump | branch | ret => rfl
    | binary | unary | copy | alloca | load | store | call => cases isTerminator
  · intro use _ value _ definition isResult
    cases definition with
    | store => cases isResult
    | _ => rfl
  · intro dest place member content
    exact List.any_eq_true.mpr ⟨.slot place, List.mem_filterMap.mpr ⟨_, member, rfl⟩, by
      simp [Value.isSame]⟩

theorem Grounded.dropUnused (grounded : function.Grounded) : function.dropUnused.1.Grounded := by
  refine grounded.keepInstrs (fun instr isTerminator => ?_) ?_ ?_
  · cases instr with
    | jump | branch | ret => rfl
    | binary | unary | copy | alloca | load | store | call => cases isTerminator
  · intro use member value read definition isResult
    have listed : value ∈ function.used := List.mem_flatMap.mpr ⟨use, member, read⟩
    have used : function.used.any value.isSame = true :=
      List.any_eq_true.mpr ⟨value, listed, Instr.isSame_result isResult⟩
    simp [isResult, used]
  · exact fun _ _ _ _ => rfl

/-- What passes need to know of a function and keep. -/
structure Orderly (known : Callee → Bool) (function : Function) : Prop where
  /-- Its edges are those of its code. -/
  wired : function.Wired
  /-- It is well formed. -/
  wellFormed : function.violations known = []
  /-- Definitions dominate uses. -/
  grounded : function.Grounded

theorem Orderly.foldConstants (orderly : function.Orderly known) :
    function.foldConstants.1.Orderly known := by
  obtain ⟨wired, wellFormed⟩ := orderly.wired.foldConstants orderly.wellFormed
  exact ⟨wired, wellFormed, orderly.grounded.foldConstants⟩

theorem Orderly.sweep (orderly : function.Orderly known) : function.sweep.1.Orderly known := by
  obtain ⟨pruned, -⟩ := orderly.wired.sweep orderly.wellFormed
  refine ⟨pruned.wired, pruned.wellFormed, ?_⟩
  exact (orderly.grounded.dropUnreachable orderly.wired
    orderly.wellFormed).dropDeadStores.dropUnused

theorem Orderly.sweepWithin (rounds : Nat) (orderly : function.Orderly known) :
    (function.sweepWithin rounds).1.Orderly known := by
  induction rounds generalizing function with
  | zero => exact orderly
  | succ rounds ih =>
      rw [Function.sweepWithin]
      dsimp only
      split
      · exact ih orderly.sweep
      · exact orderly.sweep

theorem Orderly.eliminateDeadCode (orderly : function.Orderly known) :
    function.eliminateDeadCode.1.Orderly known :=
  orderly.sweepWithin _

end DeadCode

end Function

theorem orderly_rewriting (known : Callee → Bool) :
    Rewriting fun function other => function.Orderly known → other.Orderly known where
  refl _ orderly := orderly
  trans first second orderly := second (first orderly)
  folding _ orderly := orderly.foldConstants
  deadCode _ orderly := orderly.eliminateDeadCode

/-- An optimizer keeps what the functions of a module keep to. -/
theorem Optimizer.optimize_orderly {known : Callee → Bool} {module : Module}
    (orderly : ∀ function ∈ module.functions, function.Orderly known) (optimizer : Optimizer) :
    ∀ function ∈ (optimizer.optimize module).1.functions, function.Orderly known := by
  intro function member
  obtain ⟨original, within, keeps⟩ :=
    exists_of_forall₂ ((orderly_rewriting known).optimize optimizer module) member
  exact keeps (orderly original within)

end ScriptCompiler.IR
