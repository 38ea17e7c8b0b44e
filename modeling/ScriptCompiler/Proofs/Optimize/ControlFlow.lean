import Mathlib.Data.List.Forall2
import ScriptCompiler.Optimize.Pipeline
import ScriptCompiler.Proofs.IR.ControlFlow
import ScriptCompiler.Proofs.Optimize.Rewriting

/-!
# Passes and the control-flow graph

The passes keep a well-formed, wired function well formed and wired.  Folding forgets exactly the
edges that decided branches no longer take (`Function.Wired.foldConstants`).  The search for the
blocks that can be reached finds all of them (`Function.Wired.mem_reachable_iff`), so behind dead
code elimination exactly those are left (`Function.Wired.eliminateDeadCode`).
-/

namespace ScriptCompiler.IR

/-! ### The search

A set of numbers is closed when it contains the neighbours of its members.  A step of the search
leads to a closed set, or it finds a number more that has neighbours.  So as many steps as there are
such numbers lead to a closed set, which is what can be reached.
-/

namespace Search

variable {next : Nat → List Nat} {seen : List Nat} {id : Nat}

/-- The set contains the neighbours of its members. -/
def Closed (next : Nat → List Nat) (seen : List Nat) : Prop :=
  ∀ id ∈ seen, ∀ other ∈ next id, other ∈ seen

/-- Numbers that are not there yet are added one after the other. -/
theorem mem_foldl_insert (items seen : List Nat) :
    id ∈ items.foldl
        (fun found id => if found.contains id then found else found ++ [id]) seen ↔
      id ∈ seen ∨ id ∈ items := by
  induction items generalizing seen with
  | nil => simp
  | cons item rest ih =>
      rw [List.foldl_cons, ih, List.mem_cons]
      by_cases there : item ∈ seen
      · rw [if_pos (by simpa using there)]
        constructor
        · rintro (old | new)
          · exact .inl old
          · exact .inr (.inr new)
        · rintro (old | rfl | new)
          · exact .inl old
          · exact .inl there
          · exact .inr new
      · rw [if_neg (by simpa using there), List.mem_append, List.mem_singleton, or_assoc]

theorem mem_widen : id ∈ widen next seen ↔ id ∈ seen ∨ ∃ source ∈ seen, id ∈ next source := by
  rw [widen, mem_foldl_insert, List.mem_flatMap]

/-- Widening a closed set adds nothing. -/
theorem Closed.mem_widen_iff (closed : Closed next seen) : id ∈ widen next seen ↔ id ∈ seen := by
  refine mem_widen.trans ⟨?_, .inl⟩
  rintro (old | ⟨source, within, edge⟩)
  · exact old
  · exact closed source within id edge

theorem Closed.widen (closed : Closed next seen) : Closed next (widen next seen) := by
  intro id member other edge
  exact closed.mem_widen_iff.mpr (closed id (closed.mem_widen_iff.mp member) other edge)

theorem Closed.within (closed : Closed next seen) (steps : Nat) :
    Closed next (within next steps seen) := by
  induction steps generalizing seen with
  | zero => exact closed
  | succ steps ih => exact ih closed.widen

/-- Where widening does not lead to a closed set, it finds a number more that has neighbours. -/
theorem length_filter_widen_lt {all : List Nat} (sources : ∀ id, next id ≠ [] → id ∈ all)
    (more : ¬ Closed next (widen next seen)) :
    (all.filter fun id => !(widen next seen).contains id).length <
      (all.filter fun id => !seen.contains id).length := by
  have fewer : (all.filter fun id => !(widen next seen).contains id) =
      (all.filter fun id => !seen.contains id).filter
        fun id => !(widen next seen).contains id := by
    rw [List.filter_filter]
    refine List.filter_congr fun id _ => ?_
    have kept : id ∈ seen → id ∈ widen next seen := fun old => mem_widen.mpr (.inl old)
    by_cases new : id ∈ widen next seen <;> simp_all
  simp only [Closed, not_forall] at more
  obtain ⟨id, found, other, edge, missing⟩ := more
  have fresh : id ∉ seen := fun old => missing (mem_widen.mpr (.inr ⟨id, old, edge⟩))
  have isSource : id ∈ all := sources id (List.ne_nil_of_mem edge)
  rw [fewer]
  exact List.length_filter_lt_length_iff_exists.mpr
    ⟨id, List.mem_filter.mpr ⟨isSource, by simpa using fresh⟩, by simpa using found⟩

/-- More steps than there are numbers with neighbours to be found lead to a closed set. -/
theorem within_closed {all : List Nat} (sources : ∀ id, next id ≠ [] → id ∈ all) (steps : Nat)
    (enough : Closed next seen ∨ (all.filter fun id => !seen.contains id).length < steps) :
    Closed next (within next steps seen) := by
  induction steps generalizing seen with
  | zero => exact enough.resolve_right (Nat.not_lt_zero _)
  | succ steps ih =>
      rw [within]
      by_cases closed : Closed next (widen next seen)
      · exact closed.within steps
      · have fewer := length_filter_widen_lt sources closed
        have left := enough.resolve_left fun same => closed same.widen
        exact ih (.inr (by omega))

theorem subset_within (steps : Nat) (member : id ∈ seen) : id ∈ within next steps seen := by
  induction steps generalizing seen with
  | zero => exact member
  | succ steps ih => exact ih (mem_widen.mpr (.inl member))

/-- The search finds only what the edges lead to. -/
theorem leads_of_mem_within {start : Nat} (steps : Nat)
    (leads : ∀ id ∈ seen,
      Relation.ReflTransGen (fun source target => target ∈ next source) start id)
    (found : id ∈ within next steps seen) :
    Relation.ReflTransGen (fun source target => target ∈ next source) start id := by
  induction steps generalizing seen with
  | zero => exact leads id found
  | succ steps ih =>
      refine ih (fun id member => ?_) found
      rcases mem_widen.mp member with old | ⟨source, known, edge⟩
      · exact leads id old
      · exact (leads source known).tail edge

/-- **The search finds what the edges lead to**, given as many steps as there are numbers with
neighbours. -/
theorem mem_within_iff (all : List Nat) {start steps : Nat}
    (sources : ∀ id, next id ≠ [] → id ∈ all) (enough : all.length ≤ steps) :
    id ∈ within next steps [start] ↔
      Relation.ReflTransGen (fun source target => target ∈ next source) start id := by
  constructor
  · refine leads_of_mem_within steps fun other member => ?_
    rw [List.mem_singleton.mp member]
  · have closed : Closed next (within next steps [start]) := by
      refine within_closed sources steps ?_
      by_cases starts : start ∈ all
      · refine .inr (Nat.lt_of_lt_of_le ?_ enough)
        exact List.length_filter_lt_length_iff_exists.mpr ⟨start, starts, by simp⟩
      · -- nothing but the start is found
        refine .inl fun other member target edge => absurd ?_ starts
        rw [List.mem_singleton.mp member] at edge
        exact sources start (List.ne_nil_of_mem edge)
    intro leads
    induction leads with
    | refl => exact subset_within _ (List.mem_singleton_self _)
    | tail _ edge ih => exact closed _ ih _ edge

end Search

/-! ### Reachability -/

namespace Function

variable {function other : Function} {known : Callee → Bool} {id : Nat}

/-- The search finds the blocks that the edges lead to. -/
theorem mem_reachable_iff : id ∈ function.reachable ↔
    Relation.ReflTransGen (fun source target => target ∈ function.successorsOf source) entry id :=
  Search.mem_within_iff (function.blocks.map fun block => block.name.id)
    (fun source some => block?_isSome_iff.mp
      (isSome_of_mem_successorsOf (List.exists_mem_of_ne_nil _ some).choose_spec)) (by simp)

/-- **The search finds the blocks that can be reached.** -/
theorem Wired.mem_reachable_iff (wired : function.Wired) :
    id ∈ function.reachable ↔ function.Reaches id := by
  have edges : (fun source target => target ∈ function.successorsOf source) =
      fun source target => target ∈ function.targetsOf source := by
    funext source target
    exact propext (wired.jumps source target)
  rw [Function.mem_reachable_iff, edges]
  rfl

theorem Wired.isSome_of_reaches (wired : function.Wired) (reaches : function.Reaches id) :
    (function.block? id).isSome := by
  cases reaches with
  | refl => exact wired.entry_isSome
  | tail _ edge => exact wired.target_isSome ((wired.jumps _ _).mpr edge)

/-- Where the code of reached blocks jumps to the same blocks, the same blocks are reached. -/
theorem reaches_congr
    (same : ∀ id, function.Reaches id → other.targetsOf id = function.targetsOf id) :
    other.Reaches id ↔ function.Reaches id := by
  constructor
  · intro reaches
    induction reaches with
    | refl => exact .refl
    | tail _ edge ih => exact ih.tail (same _ ih ▸ edge)
  · intro reaches
    induction reaches with
    | refl => exact .refl
    | tail earlier edge ih =>
        refine ih.tail ?_
        rwa [same _ earlier]

end Function

/-! ### Blocks that become smaller -/

/-- Terminators stand at the end alone exactly if nothing stands behind one. -/
theorem shaped_iff_pairwise {instrs : List Instr} :
    Shaped instrs ↔ instrs.Pairwise fun earlier _ => earlier.isTerminator = false := by
  induction instrs with
  | nil => simp [Shaped]
  | cons instr rest ih =>
      rw [shaped_cons, List.pairwise_cons, ih]
      refine and_congr_left fun _ =>
        ⟨fun inner other member => inner (List.ne_nil_of_mem member), ?_⟩
      intro inner nonempty
      obtain ⟨other, member⟩ := List.exists_mem_of_ne_nil rest nonempty
      exact inner other member

/-- A block that is well formed wherever another one is: its terminator stays one, and it has no new
target and no new callee. -/
structure Block.Reduces (block reduced : Block) : Prop where
  /-- The name stays. -/
  name_eq : reduced.name = block.name
  /-- The end stays an end. -/
  terminated : block.isTerminated = true → reduced.isTerminated = true
  /-- Nothing is put behind a terminator. -/
  shaped : Shaped block.instrs → Shaped reduced.instrs
  /-- No target is new. -/
  targets : targetIds reduced.instrs ⊆ targetIds block.instrs
  /-- No callee is new. -/
  callees : ∀ instr ∈ reduced.instrs, ∀ callee ∈ instr.callee?, ∃ old ∈ block.instrs,
    callee ∈ old.callee?

theorem Block.Reduces.refl (block : Block) : block.Reduces block :=
  ⟨rfl, fun terminated => terminated, fun shaped => shaped, List.Subset.refl _,
    fun instr within _ isCallee => ⟨instr, within, isCallee⟩⟩

/-- A reduction is a matter of the name and the code. -/
theorem Block.Reduces.congr {block reduced other : Block} (reduces : block.Reduces reduced)
    (name : reduced.name = other.name) (instrs : reduced.instrs = other.instrs) :
    block.Reduces other where
  name_eq := name ▸ reduces.name_eq
  terminated := by
    intro terminated
    rw [isTerminated, terminator?, ← instrs]
    exact reduces.terminated terminated
  shaped := instrs ▸ reduces.shaped
  targets := instrs ▸ reduces.targets
  callees := instrs ▸ reduces.callees

namespace Function

variable {function other : Function} {known : Callee → Bool}

/-- Where blocks look the same but for their neighbours, a block has a counterpart with its code. -/
theorem exists_sameCode
    (same : (other.blocks.map fun block => (block.name, block.instrs)) =
      function.blocks.map fun block => (block.name, block.instrs))
    {block : Block} (member : block ∈ other.blocks) :
    ∃ partner ∈ function.blocks, partner.name = block.name ∧ partner.instrs = block.instrs := by
  have listed : (block.name, block.instrs) ∈
      other.blocks.map fun block => (block.name, block.instrs) := List.mem_map_of_mem member
  rw [same] at listed
  obtain ⟨partner, within, equal⟩ := List.mem_map.mp listed
  exact ⟨partner, within, congrArg Prod.fst equal, congrArg Prod.snd equal⟩

theorem violations_iff_predecessorsOf :
    function.violations known = [] ↔
      (∀ block ∈ function.blocks, block.WellFormed function known) ∧
        function.predecessorsOf entry = [] := by
  rw [violations_eq_nil_iff, predecessorsOf]
  refine and_congr_right fun _ => ?_
  cases function.block? entry with
  | none => simp
  | some block => simp

/-- A function is well formed if its blocks are reductions of the blocks of a well-formed one and
what they jump to is still there. -/
theorem violations_of_reduces (wellFormed : function.violations known = [])
    (reduces : ∀ reduced ∈ other.blocks, ∃ block ∈ function.blocks, block.Reduces reduced)
    (owned : ∀ reduced ∈ other.blocks, ∀ id ∈ targetIds reduced.instrs,
      (function.block? id).isSome → (other.block? id).isSome)
    (entered : other.predecessorsOf entry ⊆ function.predecessorsOf entry) :
    other.violations known = [] := by
  rw [violations_iff_predecessorsOf] at wellFormed ⊢
  refine ⟨fun reduced member => ?_, ?_⟩
  · obtain ⟨block, within, reduction⟩ := reduces reduced member
    have whole := wellFormed.1 block within
    refine ⟨reduction.terminated whole.terminated, reduction.shaped whole.shaped, ?_, ?_⟩
    · intro instr inside target aims
      have listed := mem_targetIds.mpr ⟨instr, inside, target, aims, rfl⟩
      obtain ⟨old, there, name, aims', same⟩ := mem_targetIds.mp (reduction.targets listed)
      exact owned reduced member target.id listed (same ▸ whole.owned old there name aims')
    · intro instr inside callee isCallee
      obtain ⟨old, there, isCallee'⟩ := reduction.callees instr inside callee isCallee
      exact whole.callees old there callee isCallee'
  · exact List.eq_nil_iff_forall_not_mem.mpr fun id member => by
      simpa [wellFormed.2] using entered member

end Function

/-! ### Folding -/

/-- What folding makes of an instruction when some results are known, and the block that control no
longer passes to. -/
inductive Instr.FoldsTo (known : Known) : Instr → Instr → Option BlockName → Prop where
  /-- An operation on constants is computed. -/
  | computed {instr : Instr} {dest : Temp} {content : Constant}
      (result : (instr.substituted known).computed? = some (dest, content)) :
      FoldsTo known instr (.copy dest (.constant content)) none
  /-- A branch on a constant becomes a jump. -/
  | decided {instr : Instr} {taken dropped : BlockName}
      (choice : (instr.substituted known).decided? = some (taken, dropped)) :
      FoldsTo known instr (.jump taken) (if dropped.id == taken.id then none else some dropped)
  /-- Constants stand in for operands. -/
  | kept {instr : Instr} : FoldsTo known instr (instr.substituted known) none

/-- Folding makes one instruction of another, whatever is known. -/
def Instr.Folds (instr folded : Instr) : Prop := ∃ known dropped, instr.FoldsTo known folded dropped

namespace Folding

theorem onInstr_foldsTo (state : Folding) (instr : Instr) :
    instr.FoldsTo state.known (state.onInstr instr).2.1 (state.onInstr instr).2.2 := by
  unfold onInstr
  dsimp only
  split
  · rename_i dest content result
    exact .computed result
  · split
    · rename_i taken dropped choice
      exact .decided choice
    · split <;> exact .kept

/-- Folding makes a constant known only where it puts it under a name. -/
theorem onInstr_known (state : Folding) (instr : Instr) :
    (state.onInstr instr).1.known = state.known ∨ ∃ dest content,
      (state.onInstr instr).2.1 = .copy dest (.constant content) ∧
        (state.onInstr instr).1.known = (dest.id, content) :: state.known := by
  unfold onInstr
  dsimp only
  split
  · exact .inr ⟨_, _, rfl, rfl⟩
  · split
    · exact .inl rfl
    · split
      · rename_i dest content isCopy
        exact .inr ⟨dest, content, isCopy, rfl⟩
      · exact .inl rfl

end Folding

namespace Instr

variable {known : Known} {instr : Instr}

/-- Only operations are computed. -/
theorem computed_operation {dest : Temp} {content : Constant}
    (result : (instr.substituted known).computed? = some (dest, content)) :
    instr.isTerminator = false ∧ instr.callee? = none ∧ instr.result? = some (.temp dest) := by
  cases instr with
  | binary opcode target left right =>
      simp only [Instr.substituted, Instr.computed?] at result
      split at result
      · rename_i isBinary
        obtain ⟨-, rfl, -, -⟩ := Instr.binary.inj isBinary
        obtain ⟨value, -, same⟩ := Option.map_eq_some_iff.mp result
        cases same
        exact ⟨rfl, rfl, rfl⟩
      · rename_i isBinary
        cases isBinary
      · cases result
  | unary opcode target operand =>
      simp only [Instr.substituted, Instr.computed?] at result
      split at result
      · rename_i isUnary
        cases isUnary
      · rename_i isUnary
        obtain ⟨-, rfl, -⟩ := Instr.unary.inj isUnary
        obtain ⟨value, -, same⟩ := Option.map_eq_some_iff.mp result
        cases same
        exact ⟨rfl, rfl, rfl⟩
      · cases result
  | _ => cases result

/-- Only branches are decided, by the constant that their condition is known to be. -/
theorem decided_branch {taken dropped : BlockName}
    (choice : (instr.substituted known).decided? = some (taken, dropped)) :
    ∃ condition ifTrue ifFalse value, instr = .branch condition ifTrue ifFalse ∧
      condition.replaced known = .constant (.bool value) ∧
      taken = (if value then ifTrue else ifFalse) ∧ dropped = if value then
        ifFalse else ifTrue := by
  cases instr with
  | branch condition ifTrue ifFalse =>
      simp only [Instr.substituted, Instr.decided?] at choice
      split at choice
      · rename_i isBranch
        obtain ⟨isKnown, rfl, rfl⟩ := Instr.branch.inj isBranch
        cases choice
        exact ⟨condition, _, _, true, rfl, isKnown, rfl, rfl⟩
      · rename_i isBranch
        obtain ⟨isKnown, rfl, rfl⟩ := Instr.branch.inj isBranch
        cases choice
        exact ⟨condition, _, _, false, rfl, isKnown, rfl, rfl⟩
      · cases choice
  | _ => cases choice

end Instr

namespace Instr.FoldsTo

variable {known : Known} {instr folded : Instr} {dropped : Option BlockName}

theorem isTerminator_eq (folds : instr.FoldsTo known folded dropped) :
    folded.isTerminator = instr.isTerminator := by
  cases folds with
  | computed result => exact (computed_operation result).1.symm
  | decided choice =>
      obtain ⟨_, _, _, _, rfl, -⟩ := decided_branch choice
      rfl
  | kept => cases instr <;> rfl

theorem callee?_eq (folds : instr.FoldsTo known folded dropped) :
    folded.callee? = instr.callee? := by
  cases folds with
  | computed result => exact (computed_operation result).2.1.symm
  | decided choice =>
      obtain ⟨_, _, _, _, rfl, -⟩ := decided_branch choice
      rfl
  | kept => cases instr <;> rfl

theorem dropped_eq_none (folds : instr.FoldsTo known folded dropped)
    (inner : instr.isTerminator = false) : dropped = none := by
  cases folds with
  | computed result => rfl
  | decided choice =>
      obtain ⟨_, _, _, _, rfl, -⟩ := decided_branch choice
      cases inner
  | kept => rfl

/-- The targets that are left are those that are not dropped. -/
theorem mem_targets_iff (folds : instr.FoldsTo known folded dropped) (id : Nat) :
    id ∈ folded.targets.map BlockName.id ↔
      id ∈ instr.targets.map BlockName.id ∧ id ∉ dropped.toList.map BlockName.id := by
  cases folds with
  | computed result =>
      rw [Instr.targets_eq_nil (computed_operation result).1]
      simp [Instr.targets]
  | @decided taken dropped choice =>
      obtain ⟨condition, ifTrue, ifFalse, value, rfl, -, isTaken, isDropped⟩ :=
        decided_branch choice
      have either : id ∈ (Instr.branch condition ifTrue ifFalse).targets.map BlockName.id ↔
          id = taken.id ∨ id = dropped.id := by
        cases value <;> simp [Instr.targets, isTaken, isDropped, or_comm]
      rw [either]
      by_cases same : dropped.id = taken.id
      · simp [Instr.targets, same]
      · have differ : id = taken.id → id ≠ dropped.id :=
          fun isId equal => same (equal.symm.trans isId)
        simp only [Instr.targets, List.map_cons, List.map_nil, List.mem_singleton, beq_iff_eq, same,
          if_false, Option.toList_some]
        tauto
  | kept => cases instr <;> simp [Instr.substituted, Instr.targets]

end Instr.FoldsTo

namespace Folding

/-- The code of a block is folded instruction by instruction. -/
theorem onInstrs_forall₂ (state : Folding) (instrs : List Instr) :
    List.Forall₂ Instr.Folds instrs (state.onInstrs instrs).2.1 := by
  induction instrs generalizing state with
  | nil => exact .nil
  | cons instr rest ih => exact .cons ⟨_, _, state.onInstr_foldsTo instr⟩ (ih _)

/-- In well-shaped code only the last instruction drops a target. -/
theorem mem_targetIds_onInstrs (state : Folding) {instrs : List Instr} (shaped : Shaped instrs)
    (id : Nat) :
    id ∈ targetIds (state.onInstrs instrs).2.1 ↔
      id ∈ targetIds instrs ∧ id ∉ (state.onInstrs instrs).2.2.map BlockName.id := by
  induction instrs generalizing state with
  | nil => simp [onInstrs, targetIds]
  | cons instr rest ih =>
      have folds := state.onInstr_foldsTo instr
      obtain ⟨inner, restShaped⟩ := shaped_cons.mp shaped
      have here := folds.mem_targets_iff id
      have later := ih (state.onInstr instr).1 restShaped
      rw [onInstrs]
      simp only [targetIds, List.flatMap_cons, List.mem_append, List.map_append, not_or]
        at here later ⊢
      cases rest with
      | nil => simpa [onInstrs] using here
      | cons next rest =>
          -- what stands before the end has no targets and drops none
          have notLast := inner (List.cons_ne_nil _ _)
          rw [Instr.targets_eq_nil notLast, folds.dropped_eq_none notLast] at here ⊢
          rw [here, later]
          simp

end Folding

namespace Block

variable {block folded : Block}

/-- A block whose code is folded instruction by instruction. -/
structure Folded (block folded : Block) : Prop where
  /-- All but the code stays. -/
  frame : folded = { block with instrs := folded.instrs }
  /-- The code is folded. -/
  instrs : List.Forall₂ Instr.Folds block.instrs folded.instrs

theorem Folded.name_eq (folds : block.Folded folded) : folded.name = block.name := by
  rw [folds.frame]

theorem map_isTerminator_folded {instrs others : List Instr}
    (folds : List.Forall₂ Instr.Folds instrs others) :
    others.map Instr.isTerminator = instrs.map Instr.isTerminator := by
  induction folds with
  | nil => rfl
  | cons first _ ih =>
      obtain ⟨known, dropped, first⟩ := first
      rw [List.map_cons, List.map_cons, first.isTerminator_eq, ih]

theorem Folded.reduces (folds : block.Folded folded) : block.Reduces folded where
  name_eq := folds.name_eq
  terminated := by
    intro terminated
    have ends := congrArg List.getLast? (map_isTerminator_folded folds.instrs)
    rw [List.getLast?_map, List.getLast?_map] at ends
    unfold isTerminated terminator? at terminated ⊢
    rw [Option.isSome_filter] at terminated ⊢
    cases last : block.instrs.getLast? <;> cases last' : folded.instrs.getLast? <;>
      simp_all
  shaped := by
    intro shaped
    have same := map_isTerminator_folded folds.instrs
    rw [shaped_iff_pairwise] at shaped ⊢
    have pairs : (block.instrs.map Instr.isTerminator).Pairwise fun earlier _ => earlier = false :=
      List.pairwise_map.mpr shaped
    rw [← same] at pairs
    exact List.pairwise_map.mp pairs
  targets := by
    intro id member
    obtain ⟨instr, within, name, aims, rfl⟩ := mem_targetIds.mp member
    obtain ⟨old, there, known, dropped, folding⟩ := exists_of_forall₂ folds.instrs within
    have kept := ((folding.mem_targets_iff name.id).mp (List.mem_map_of_mem aims)).1
    obtain ⟨target, aims', same⟩ := List.mem_map.mp kept
    exact mem_targetIds.mpr ⟨old, there, target, aims', same⟩
  callees := by
    intro instr within callee isCallee
    obtain ⟨old, there, known, dropped, folding⟩ := exists_of_forall₂ folds.instrs within
    exact ⟨old, there, folding.callee?_eq ▸ isCallee⟩

end Block

namespace Folding

/-- Folding goes block by block. -/
theorem onBlocks_forall₂ (state : Folding) (blocks : List Block) :
    List.Forall₂ Block.Folded blocks (state.onBlocks blocks).2.1 := by
  induction blocks generalizing state with
  | nil => exact .nil
  | cons block rest ih => exact .cons ⟨rfl, state.onInstrs_forall₂ block.instrs⟩ (ih _)

/-- An edge is dropped where it begins. -/
theorem source_mem_onBlocks (state : Folding) (blocks : List Block) :
    ∀ edge ∈ (state.onBlocks blocks).2.2, edge.1 ∈ blocks.map Block.name := by
  induction blocks generalizing state with
  | nil => simp [onBlocks]
  | cons block rest ih =>
      rw [onBlocks]
      dsimp only
      rw [List.map_cons]
      intro edge member
      rcases List.mem_append.mp member with here | later
      · obtain ⟨target, -, rfl⟩ := List.mem_map.mp here
        exact List.mem_cons_self
      · exact List.mem_cons_of_mem _ (ih _ edge later)

/-- The targets that are left are those whose edges are not dropped. -/
theorem mem_targetIds_onBlocks (state : Folding) {blocks : List Block}
    (unique : (blocks.map fun block => block.name.id).Nodup)
    (shaped : ∀ block ∈ blocks, Shaped block.instrs) :
    List.Forall₂ (fun block folded => ∀ id, id ∈ targetIds folded.instrs ↔
        id ∈ targetIds block.instrs ∧
          (block.name.id, id) ∉ (state.onBlocks blocks).2.2.map edgeIds)
      blocks (state.onBlocks blocks).2.1 := by
  induction blocks generalizing state with
  | nil => exact .nil
  | cons block rest ih =>
      obtain ⟨fresh, unique⟩ := List.nodup_cons.mp unique
      obtain ⟨here, later⟩ := List.forall_mem_cons.mp shaped
      have sources := (state.onInstrs block.instrs).1.source_mem_onBlocks rest
      rw [onBlocks]
      dsimp only
      rw [List.map_append, List.map_map]
      refine .cons (fun id => ?_) (forall₂_imp_mem (ih _ unique later) ?_)
      · rw [state.mem_targetIds_onInstrs here, List.mem_append, not_or]
        refine and_congr_right fun _ => ?_
        have own : (block.name.id, id) ∈ (state.onInstrs block.instrs).2.2.map
            (edgeIds ∘ fun target => (block.name, target)) ↔
            id ∈ (state.onInstrs block.instrs).2.2.map BlockName.id := by
          simp [edgeIds]
        have others : (block.name.id, id) ∉
            ((state.onInstrs block.instrs).1.onBlocks rest).2.2.map edgeIds := by
          intro member
          obtain ⟨edge, dropped, same⟩ := List.mem_map.mp member
          obtain ⟨source, within, isSource⟩ := List.mem_map.mp (sources edge dropped)
          refine fresh (List.mem_map.mpr ⟨source, within, ?_⟩)
          rw [isSource]
          exact congrArg Prod.fst same
        rw [own]
        exact ⟨fun kept => ⟨kept, others⟩, fun kept => kept.1⟩
      · intro other member folded iff id
        have differ : other.name.id ≠ block.name.id := fun same =>
          fresh (List.mem_map.mpr ⟨other, member, same⟩)
        rw [iff, List.mem_append, not_or]
        refine and_congr_right fun _ => (and_iff_right ?_).symm
        intro mine
        obtain ⟨target, -, same⟩ := List.mem_map.mp mine
        exact differ (congrArg Prod.fst same).symm

end Folding

namespace Function

variable {function : Function} {known : Callee → Bool} {id : Nat}

/-- Under the same number stands the counterpart of a block. -/
theorem block?_forall₂ {related : Block → Block → Prop} {other : Function}
    (each : List.Forall₂ related function.blocks other.blocks)
    (names : ∀ block partner, related block partner → partner.name = block.name) :
    Option.Rel related (function.block? id) (other.block? id) := by
  unfold block?
  generalize function.blocks = blocks at each
  generalize other.blocks = partners at each
  induction each with
  | nil => exact .none
  | @cons block partner _ _ first _ ih =>
      rw [List.find?_cons, List.find?_cons, names block partner first]
      split
      · exact .some first
      · exact ih

/-- **Folding keeps a well-formed, wired function well formed and wired.** -/
theorem Wired.foldConstants (wired : function.Wired) (wellFormed : function.violations known = []) :
    function.foldConstants.1.Wired ∧ function.foldConstants.1.violations known = [] := by
  have shaped := fun block member => ((violations_eq_nil_iff.mp wellFormed).1 block member).shaped
  let edges := (Folding.onBlocks {} function.blocks).2.2
  let folded : Function := { function with blocks := (Folding.onBlocks {} function.blocks).2.1 }
  have each : List.Forall₂ Block.Folded function.blocks folded.blocks :=
    Folding.onBlocks_forall₂ {} function.blocks
  have targets : ∀ id next, next ∈ folded.targetsOf id ↔
      next ∈ function.targetsOf id ∧ (id, next) ∉ edges.map edgeIds := by
    intro id next
    have pairs := List.Forall₂.mp (fun _ _ => And.intro) each
      (Folding.mem_targetIds_onBlocks {} wired.unique shaped)
    have here : Option.Rel _ (function.block? id) (folded.block? id) :=
      block?_forall₂ pairs fun _ _ folds => folds.1.name_eq
    unfold targetsOf code
    generalize found : function.block? id = place at here
    generalize folded.block? id = partner at here
    cases here with
    | none => simp [targetIds]
    | some holds =>
        have isId := id_of_block? found
        subst isId
        exact holds.2 next
  have linked : folded.Linked := by
    refine wired.toLinked.congr (map_eq_of_forall₂ _ each fun block partner folds => ?_)
      (map_eq_of_forall₂ _ each fun block partner folds => ?_)
    · rw [folds.frame]
    · rw [folds.frame]
  have same : function.foldConstants.1 = folded.removeEdges edges := rfl
  have kept : ∀ id, folded.successorsOf id = function.successorsOf id ∧
      folded.predecessorsOf id = function.predecessorsOf id := fun id =>
    neighbours_congr (map_eq_of_forall₂ _ each fun block partner folds => by rw [folds.frame])
  have wiredAfter : function.foldConstants.1.Wired := by
    refine ⟨linked.removeEdges edges, fun id next => ?_⟩
    rw [same, successorsOf_removeEdges, targetsOf, code_removeEdges, ← targetsOf, targets,
      List.mem_filter,
      ← wired.jumps, (kept id).1, decide_eq_true_eq]
  refine ⟨wiredAfter, violations_of_reduces wellFormed (fun reduced member => ?_) ?_ ?_⟩
  · obtain ⟨partner, within, nameEq, instrsEq⟩ :=
      exists_sameCode (map_blocks_removeEdges edges folded _ fun _ _ _ => rfl) member
    obtain ⟨block, there, folds⟩ := exists_of_forall₂ each within
    exact ⟨block, there, folds.reduces.congr nameEq instrsEq⟩
  · intro reduced _ id _ owned
    rw [block?_isSome_iff] at owned ⊢
    rw [same, map_blocks_removeEdges edges folded _ fun _ _ _ => rfl,
      map_eq_of_forall₂ _ each fun block partner folds => by rw [folds.frame]]
    exact owned
  · rw [same, predecessorsOf_removeEdges, (kept entry).2]
    exact List.filter_subset_self _

/-- Folding keeps the blocks. -/
theorem names_foldConstants (function : Function) :
    function.foldConstants.1.blocks.map Block.name = function.blocks.map Block.name := by
  let folded : Function := { function with blocks := (Folding.onBlocks {} function.blocks).2.1 }
  have each : List.Forall₂ Block.Folded function.blocks folded.blocks :=
    Folding.onBlocks_forall₂ {} function.blocks
  have same : function.foldConstants.1 =
      folded.removeEdges (Folding.onBlocks {} function.blocks).2.2 := rfl
  rw [same, map_blocks_removeEdges _ folded _ fun _ _ _ => rfl]
  exact map_eq_of_forall₂ _ each fun block partner folds => by rw [folds.frame]

end Function

/-! ### Dead code -/

namespace Function

variable {function pruned other : Function} {known : Callee → Bool} {id : Nat}

/-- A function without some of the code and the blocks that control never gets to. -/
structure Prunes (known : Callee → Bool) (function pruned : Function) : Prop where
  /-- It is wired. -/
  wired : pruned.Wired
  /-- It is well formed. -/
  wellFormed : pruned.violations known = []
  /-- No block is new. -/
  names_subset : pruned.blocks.map Block.name ⊆ function.blocks.map Block.name
  /-- What can be reached stays. -/
  kept : ∀ name ∈ function.blocks.map Block.name, function.Reaches name.id →
    name ∈ pruned.blocks.map Block.name
  /-- The same blocks are reached. -/
  reaches_iff : ∀ id, pruned.Reaches id ↔ function.Reaches id

theorem Prunes.refl (wired : function.Wired) (wellFormed : function.violations known = []) :
    Prunes known function function :=
  ⟨wired, wellFormed, List.Subset.refl _, fun _ member _ => member, fun _ => Iff.rfl⟩

theorem Prunes.trans (first : Prunes known function other) (second : Prunes known other pruned) :
    Prunes known function pruned where
  wired := second.wired
  wellFormed := second.wellFormed
  names_subset := fun _ member => first.names_subset (second.names_subset member)
  kept := fun name member reaches =>
    second.kept name (first.kept name member reaches) ((first.reaches_iff name.id).mpr reaches)
  reaches_iff := fun id => (second.reaches_iff id).trans (first.reaches_iff id)

/-- A block from which instructions other than its terminator are taken away. -/
theorem reduces_filter (block : Block) {keep : Instr → Bool}
    (keeps : ∀ instr, instr.isTerminator = true → keep instr = true) :
    block.Reduces { block with instrs := block.instrs.filter keep } where
  name_eq := rfl
  terminated := by
    intro terminated
    obtain ⟨body, last, split, isTerminator⟩ := Block.isTerminated_iff.mp terminated
    refine Block.isTerminated_iff.mpr ⟨body.filter keep, last, ?_, isTerminator⟩
    simp [split, List.filter_append, keeps last isTerminator]
  shaped := by
    intro shaped
    rw [shaped_iff_pairwise] at shaped ⊢
    exact shaped.sublist List.filter_sublist
  targets := by
    intro id member
    obtain ⟨instr, within, target⟩ := mem_targetIds.mp member
    exact mem_targetIds.mpr ⟨instr, List.mem_of_mem_filter within, target⟩
  callees := fun instr within callee isCallee => ⟨instr, List.mem_of_mem_filter within, isCallee⟩

theorem targetIds_filter (instrs : List Instr) {keep : Instr → Bool}
    (keeps : ∀ instr, instr.isTerminator = true → keep instr = true) (id : Nat) :
    id ∈ targetIds (instrs.filter keep) ↔ id ∈ targetIds instrs := by
  rw [mem_targetIds, mem_targetIds]
  constructor
  · rintro ⟨instr, within, aims⟩
    exact ⟨instr, List.mem_of_mem_filter within, aims⟩
  · rintro ⟨instr, within, target, aims, same⟩
    refine ⟨instr, List.mem_filter.mpr ⟨within, keeps instr ?_⟩, target, aims, same⟩
    by_contra inner
    rw [Instr.targets_eq_nil (by simpa using inner)] at aims
    cases aims

theorem block?_keepInstrs (function : Function) (keep : Instr → Bool) :
    (function.keepInstrs keep).1.block? id = (function.block? id).map fun block =>
      { block with instrs := block.instrs.filter keep } := by
  rw [block?, Function.keepInstrs, List.find?_map, block?]
  rfl

theorem code_keepInstrs (function : Function) (keep : Instr → Bool) :
    (function.keepInstrs keep).1.code id = (function.code id).filter keep := by
  rw [code, block?_keepInstrs, code]
  cases function.block? id <;> rfl

/-- Instructions other than terminators can be taken away. -/
theorem Wired.keepInstrs (wired : function.Wired) (wellFormed : function.violations known = [])
    {keep : Instr → Bool} (keeps : ∀ instr, instr.isTerminator = true → keep instr = true) :
    Prunes known function (function.keepInstrs keep).1 := by
  have views : ∀ {α : Type} (view : Block → α),
      (∀ block instrs, view { block with instrs := instrs } = view block) →
        (function.keepInstrs keep).1.blocks.map view = function.blocks.map view := by
    intro α view same
    simp only [Function.keepInstrs, List.map_map]
    exact List.map_congr_left fun block _ => same block _
  have neighbours : ∀ id,
      (function.keepInstrs keep).1.successorsOf id = function.successorsOf id ∧
      (function.keepInstrs keep).1.predecessorsOf id = function.predecessorsOf id :=
    fun id => neighbours_congr (views _ fun _ _ => rfl)
  have targets : ∀ id next, next ∈ (function.keepInstrs keep).1.targetsOf id ↔
      next ∈ function.targetsOf id := by
    intro id next
    rw [targetsOf, code_keepInstrs, targetIds_filter _ keeps, targetsOf]
  refine ⟨⟨wired.toLinked.congr (views _ fun _ _ => rfl) (views _ fun _ _ => rfl), ?_⟩,
    violations_of_reduces wellFormed ?_ ?_ ?_, ?_, ?_, ?_⟩
  · intro id next
    rw [(neighbours id).1, targets, wired.jumps]
  · intro reduced member
    obtain ⟨block, within, rfl⟩ := List.mem_map.mp member
    exact ⟨block, within, reduces_filter block keeps⟩
  · intro reduced _ id _ owned
    rw [block?_isSome_iff] at owned ⊢
    rwa [views _ fun _ _ => rfl]
  · rw [(neighbours entry).2]
    exact List.Subset.refl _
  · rw [views _ fun _ _ => rfl]
    exact List.Subset.refl _
  · intro name member _
    rwa [views _ fun _ _ => rfl]
  · intro id
    unfold Reaches
    congr! 3 with source next
    exact targets source next

/-- The edges out of blocks. -/
def edgesOut (blocks : List Block) : List (BlockName × BlockName) :=
  blocks.flatMap fun block => block.successors.map fun target => (block.name, target)

theorem foldl_detach (blocks : List Block) (function : Function) :
    blocks.foldl detach function = function.removeEdges (edgesOut blocks) := by
  induction blocks generalizing function with
  | nil => rfl
  | cons block rest ih =>
      have split : edgesOut (block :: rest) =
          (block.successors.map fun target => (block.name, target)) ++ edgesOut rest := rfl
      rw [List.foldl_cons, ih, split, removeEdges, removeEdges, List.foldl_append, List.foldl_map,
        detach]

theorem mem_edgesOut {blocks : List Block} {edge : Nat × Nat} :
    edge ∈ (edgesOut blocks).map edgeIds ↔
      ∃ block ∈ blocks, block.name.id = edge.1 ∧ edge.2 ∈ block.successors.map BlockName.id := by
  simp only [edgesOut, List.map_flatMap, List.map_map, List.mem_flatMap, List.mem_map,
    Function.comp_apply, edgeIds]
  constructor
  · rintro ⟨block, member, target, within, rfl⟩
    exact ⟨block, member, rfl, target, within, rfl⟩
  · rintro ⟨block, member, same, target, within, isTarget⟩
    exact ⟨block, member, target, within, Prod.ext same isTarget⟩

/-- Of the edges out of the blocks that cannot be reached, each leaves such a block. -/
theorem Wired.mem_edgesOut_dead (wired : function.Wired) {live : Nat → Bool} {source target : Nat} :
    (source, target) ∈
      (edgesOut (function.blocks.filter fun block => !live block.name.id)).map edgeIds ↔
      live source = false ∧ target ∈ function.successorsOf source := by
  rw [mem_edgesOut]
  constructor
  · rintro ⟨block, member, rfl, edge⟩
    obtain ⟨within, dead⟩ := List.mem_filter.mp member
    rw [successorsOf_eq (block?_of_mem wired.unique within)]
    exact ⟨by simpa using dead, edge⟩
  · rintro ⟨dead, edge⟩
    obtain ⟨block, found⟩ := Option.isSome_iff_exists.mp (isSome_of_mem_successorsOf edge)
    have isId := id_of_block? found
    subst isId
    rw [successorsOf_eq found] at edge
    exact ⟨block, List.mem_filter.mpr ⟨mem_of_block? found, by simp [dead]⟩, rfl, edge⟩

/-- The function without the blocks that cannot be reached. -/
theorem Wired.restrict_detached (wired : function.Wired)
    (wellFormed : function.violations known = [])
    {live : Nat → Bool} (reached : ∀ id, live id = true ↔ function.Reaches id) :
    let dead := function.blocks.filter fun block => !live block.name.id
    let pruned := ((function.removeEdges (edgesOut dead)).restrict live).renumber
    Prunes known function pruned ∧ ∀ block ∈ pruned.blocks, function.Reaches block.name.id := by
  intro dead pruned
  have onward : ∀ {source target}, live source = true → target ∈ function.successorsOf source →
      live target = true := by
    intro source target alive edge
    exact (reached target).mpr
      (((reached source).mp alive).tail ((wired.jumps source target).mp edge))
  have detached :
    ∀ source target, target ∈ (function.removeEdges (edgesOut dead)).successorsOf source ↔
      target ∈ function.successorsOf source ∧ live source = true := by
    intro source target
    rw [successorsOf_removeEdges, List.mem_filter, decide_eq_true_eq, wired.mem_edgesOut_dead]
    refine and_congr_right fun edge => ?_
    simp [edge]
  have linked : pruned.Linked := by
    refine (wired.toLinked.removeEdges _).restrict_renumber live ((reached _).mpr .refl) ?_
    intro source target edge
    obtain ⟨edge, alive⟩ := (detached source target).mp edge
    exact ⟨fun _ => onward alive edge, fun _ => alive⟩
  -- what is left of a block is its name, its code and its successors
  have code : ∀ id, pruned.code id = if live id then function.code id else [] :=
    code_restrict_renumber live _
  have targets : ∀ id, live id = true → pruned.targetsOf id = function.targetsOf id := by
    intro id alive
    rw [targetsOf, code, if_pos alive, targetsOf]
  have successors : ∀ source target, target ∈ pruned.successorsOf source ↔
      target ∈ function.successorsOf source ∧ live source = true := by
    intro source target
    have same : pruned.successorsOf source = _ :=
      (neighbours_congr (map_blocks_renumber _ fun _ _ => rfl)).1
    rw [same, successorsOf_restrict]
    split
    · exact detached source target
    · rename_i gone
      simp [gone]
  have wiredAfter : pruned.Wired := by
    refine ⟨linked, fun id next => ?_⟩
    rw [successors, wired.jumps]
    unfold targetsOf
    rw [code]
    split
    · rename_i alive
      simp [alive]
    · rename_i gone
      simp [gone, targetIds]
  have names : pruned.blocks.map Block.name =
      (function.blocks.map Block.name).filter fun name => live name.id := by
    rw [map_blocks_renumber _ fun _ _ => rfl, restrict,
      ← map_blocks_removeEdges (edgesOut dead) function Block.name fun _ _ _ => rfl,
        List.filter_map]
    rfl
  have counterpart : ∀ block ∈ pruned.blocks, live block.name.id = true ∧
    ∃ partner ∈ function.blocks,
      partner.name = block.name ∧ partner.instrs = block.instrs := by
    intro block member
    have named : block.name ∈ pruned.blocks.map Block.name := List.mem_map_of_mem member
    rw [names] at named
    obtain ⟨kept, within, sameName, sameInstrs⟩ :=
      exists_sameCode (map_blocks_renumber _ fun _ _ => rfl) member
    obtain ⟨partner, there, sameName', sameInstrs'⟩ := exists_sameCode
      (map_blocks_removeEdges (edgesOut dead) function _ fun _ _ _ => rfl)
        (List.mem_of_mem_filter within)
    exact ⟨(List.mem_filter.mp named).2, partner, there, sameName'.trans sameName,
      sameInstrs'.trans sameInstrs⟩
  refine ⟨⟨wiredAfter, violations_of_reduces wellFormed ?_ ?_ ?_, ?_, ?_, ?_⟩, ?_⟩
  · intro block member
    obtain ⟨-, partner, within, sameName, sameInstrs⟩ := counterpart block member
    exact ⟨partner, within, (Block.Reduces.refl partner).congr sameName sameInstrs⟩
  · intro block member id aims _
    obtain ⟨alive, partner, within, sameName, sameInstrs⟩ := counterpart block member
    have target : id ∈ function.targetsOf block.name.id := by
      rw [targetsOf, ← sameName, code_eq (block?_of_mem wired.unique within), sameInstrs]
      exact aims
    refine wiredAfter.target_isSome ((successors block.name.id id).mpr ?_)
    exact ⟨(wired.jumps _ _).mpr target, alive⟩
  · intro id member
    have edge := (wiredAfter.agree id entry).mpr member
    exact (wired.agree id entry).mp ((successors id entry).mp edge).1
  · rw [names]
    exact List.filter_subset_self _
  · intro name member reaches
    rw [names]
    exact List.mem_filter.mpr ⟨member, (reached name.id).mpr reaches⟩
  · intro id
    exact reaches_congr fun id reaches => targets id ((reached id).mpr reaches)
  · intro block member
    exact (reached _).mp (counterpart block member).1

/-- Either every block can be reached, or those that cannot are left out with their edges. -/
theorem Wired.dropUnreachable_cases (wired : function.Wired) :
    (function.dropUnreachable.1 = function ∧ ∀ block ∈ function.blocks,
      function.Reaches block.name.id) ∨
      ∃ live : Nat → Bool, (∀ id, live id = true ↔ function.Reaches id) ∧
        function.dropUnreachable.1 = ((function.removeEdges (edgesOut
          (function.blocks.filter fun block => !live block.name.id))).restrict live).renumber := by
  have reached : ∀ id, function.reachable.contains id = true ↔ function.Reaches id := by
    intro id
    rw [List.contains_iff_mem, wired.mem_reachable_iff]
  unfold Function.dropUnreachable
  dsimp only
  split
  · rename_i none
    refine .inl ⟨rfl, fun block member => (reached _).mp ?_⟩
    rw [List.isEmpty_iff, List.filter_eq_nil_iff] at none
    simpa using none block member
  · rw [foldl_detach]
    exact .inr ⟨_, reached, rfl⟩

/-- **Blocks that cannot be reached are dropped, and no others.** -/
theorem Wired.dropUnreachable (wired : function.Wired)
    (wellFormed : function.violations known = []) :
    Prunes known function function.dropUnreachable.1 ∧
      ∀ block ∈ function.dropUnreachable.1.blocks, function.Reaches block.name.id := by
  rcases wired.dropUnreachable_cases with ⟨same, all⟩ | ⟨live, reached, same⟩
  · rw [same]
    exact ⟨.refl wired wellFormed, all⟩
  · rw [same]
    exact wired.restrict_detached wellFormed reached

/-- The three deletions leave blocks that can be reached. -/
theorem Wired.sweep (wired : function.Wired) (wellFormed : function.violations known = []) :
    Prunes known function function.sweep.1 ∧
      ∀ block ∈ function.sweep.1.blocks, function.Reaches block.name.id := by
  obtain ⟨blocks, reached⟩ := wired.dropUnreachable wellFormed
  have stores : Prunes known function.dropUnreachable.1
      function.dropUnreachable.1.dropDeadStores.1 := by
    refine blocks.wired.keepInstrs blocks.wellFormed fun instr isTerminator => ?_
    cases instr with
    | jump | branch | ret => rfl
    | binary | unary | copy | alloca | load | store | call => cases isTerminator
  have unused : Prunes known function.dropUnreachable.1.dropDeadStores.1
      function.dropUnreachable.1.dropDeadStores.1.dropUnused.1 := by
    refine stores.wired.keepInstrs stores.wellFormed fun instr isTerminator => ?_
    cases instr with
    | jump | branch | ret => rfl
    | binary | unary | copy | alloca | load | store | call => cases isTerminator
  refine ⟨(blocks.trans stores).trans unused, fun block member => ?_⟩
  have listed := (stores.trans unused).names_subset (List.mem_map_of_mem member)
  obtain ⟨partner, within, same⟩ := List.mem_map.mp listed
  exact same ▸ reached partner within

theorem Wired.sweepWithin (rounds : Nat) (wired : function.Wired)
    (wellFormed : function.violations known = []) :
    Prunes known function (function.sweepWithin rounds).1 := by
  induction rounds generalizing function with
  | zero => exact .refl wired wellFormed
  | succ rounds ih =>
      have once := (wired.sweep wellFormed).1
      rw [Function.sweepWithin]
      dsimp only
      split
      · exact once.trans (ih once.wired once.wellFormed)
      · exact once

/-- **Behind dead code elimination exactly the blocks that can be reached are left.** -/
theorem Wired.eliminateDeadCode (wired : function.Wired)
    (wellFormed : function.violations known = []) :
    Prunes known function function.eliminateDeadCode.1 ∧
      ∀ block ∈ function.eliminateDeadCode.1.blocks, function.Reaches block.name.id := by
  refine ⟨wired.sweepWithin _ wellFormed, ?_⟩
  obtain ⟨once, reached⟩ := wired.sweep wellFormed
  rw [Function.eliminateDeadCode, Function.sweepWithin]
  dsimp only
  split
  · intro block member
    have later := once.wired.sweepWithin (function.blocks.length + function.instrs.length)
      once.wellFormed
    obtain ⟨partner, within, same⟩ :=
      List.mem_map.mp (later.names_subset (List.mem_map_of_mem member))
    exact same ▸ reached partner within
  · exact reached

end Function

/-! ### Passes over modules -/

theorem Pass.run_folding (counted : Bool) (function : Function) :
    (Pass.folding counted).run function = .ok ⟨function.foldConstants.1,
      function.foldConstants.2.changed, if counted then function.foldConstants.2.folded else 0⟩ :=
        rfl

theorem Pass.run_deadCode (function : Function) : Pass.deadCode.run function =
    .ok ⟨function.eliminateDeadCode.1, function.eliminateDeadCode.2, 0⟩ := rfl

namespace Module

variable {module after : Module}

/-- One pass is run on one function of a module. -/
inductive PassStep : Module → Module → Prop where
  /-- The function gives way to what the pass makes of it. -/
  | run {module : Module} {front back : List Function} {function : Function} {pass : Pass}
      {result : PassResult} (split : module.functions = front ++ function :: back)
      (run : pass.run function = .ok result) :
      PassStep module { module with functions := front ++ result.function :: back }

/-- Passes are run one after the other, each on some function of a module. -/
def PassSteps : Module → Module → Prop := Relation.ReflTransGen PassStep

/-- A module knows the functions whose names it lists. -/
theorem knows_congr (names : after.functions.map Function.name = module.functions.map Function.name)
    (externals : after.externals = module.externals) : after.knows = module.knows := by
  have same : ∀ name, (after.function? name).isSome = (module.function? name).isSome := by
    intro name
    have listed : ∀ module : Module,
        (module.function? name).isSome = (module.functions.map Function.name).contains name := by
      intro module
      rw [Bool.eq_iff_iff, function?, List.find?_isSome, List.contains_iff_mem, List.mem_map]
      simp
    rw [listed, listed, names]
  funext callee
  unfold knows
  cases callee.linkage with
  | defined => exact same callee.name
  | external => simp only [external?, externals]
  | unknown => rfl

/-- A well-formed module of wired functions. -/
structure Wired (module : Module) : Prop where
  /-- Nothing is wrong with the module. -/
  wellFormed : module.violations = []
  /-- Its functions are wired. -/
  functions : ∀ function ∈ module.functions, function.Wired

theorem Wired.function_wellFormed (wired : module.Wired) {function : Function}
    (member : function ∈ module.functions) : function.violations module.knows = [] :=
  (violations_eq_nil_iff.mp wired.wellFormed).2 function member

/-- **A pass keeps the control-flow graphs of a module consistent.** -/
theorem Wired.step (wired : module.Wired) (step : PassStep module after) : after.Wired := by
  cases step with
  | @run front back function pass result split run =>
      have member : function ∈ module.functions := by simp [split]
      have head := sameHead_rewriting.run run
      obtain ⟨wiredAfter, wellFormed⟩ : result.function.Wired ∧
          result.function.violations module.knows = [] := by
        have holds := wired.function_wellFormed member
        cases pass with
        | folding counted =>
            rw [Pass.run_folding] at run
            cases run
            exact (wired.functions function member).foldConstants holds
        | deadCode =>
            rw [Pass.run_deadCode] at run
            cases run
            have pruned := ((wired.functions function member).eliminateDeadCode holds).1
            exact ⟨pruned.wired, pruned.wellFormed⟩
        | refusing name reason => cases run
      have names : (front ++ result.function :: back).map Function.name =
          module.functions.map Function.name := by
        simp [split, head.name_eq]
      have others : ∀ other ∈ front ++ result.function :: back,
          other = result.function ∨ other ∈ module.functions := by
        intro other within
        rw [split]
        simp only [List.mem_append, List.mem_cons] at within ⊢
        tauto
      have knows : knows { module with functions := front ++ result.function :: back } =
        module.knows :=
        knows_congr names rfl
      refine ⟨violations_eq_nil_iff.mpr ⟨?_, fun other within => ?_⟩, fun other within => ?_⟩
      · exact (violations_eq_nil_iff.mp wired.wellFormed).1.imp_right fun there =>
          (congrFun knows ⟨.defined, module.entry⟩).trans there
      · rw [knows]
        rcases others other within with rfl | old
        · exact wellFormed
        · exact wired.function_wellFormed old
      · rcases others other within with rfl | old
        · exact wiredAfter
        · exact wired.functions other old

theorem Wired.steps (wired : module.Wired) (steps : PassSteps module after) : after.Wired := by
  induction steps with
  | refl => exact wired
  | tail _ step ih => exact ih.step step

end Module

end ScriptCompiler.IR
