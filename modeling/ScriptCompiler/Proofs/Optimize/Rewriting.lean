import Mathlib.Data.List.Forall2
import ScriptCompiler.Optimize.Pipeline

/-!
# What the optimizer does to functions

The optimizer applies passes to one function at a time, so what holds between a function and the
outcome of any pass holds between the functions of a module and those of the optimized module, one
for one (`Optimizer.optimize_forall₂`).  Every pass keeps the head of a function, and dead code
elimination only takes instructions away (`Function.eliminateDeadCode_trims`).
-/

namespace ScriptCompiler.IR

/-! ### Passes, rounds and functions -/

section Pipeline

variable {related : Function → Function → Prop}

/-- A relation that every pass establishes between a function and its outcome. -/
structure Rewriting (related : Function → Function → Prop) : Prop where
  /-- A function is related to itself. -/
  refl : ∀ function, related function function
  /-- The relation can be followed from pass to pass. -/
  trans : ∀ {first second third}, related first second → related second third → related first third
  /-- Folding establishes the relation. -/
  folding : ∀ function, related function function.foldConstants.1
  /-- Dead code elimination establishes the relation. -/
  deadCode : ∀ function, related function function.eliminateDeadCode.1

namespace Rewriting

variable (rewriting : Rewriting related)
include rewriting

theorem run {pass : Pass} {function : Function} {result : PassResult}
    (run : pass.run function = .ok result) : related function result.function := by
  cases pass with
  | folding counted =>
      cases run
      exact rewriting.folding function
  | deadCode =>
      cases run
      exact rewriting.deadCode function
  | refusing name reason => cases run

theorem runPasses (round : Nat) (passes : List Pass) {function : Function} (progress : Progress)
    (start : progress.function = function) :
    related function (progress.runPasses round passes).1.function := by
  induction passes generalizing progress function with
  | nil => exact start ▸ rewriting.refl _
  | cons pass rest ih =>
      rw [Progress.runPasses]
      split
      · exact start ▸ rewriting.refl _
      · rename_i result run
        refine rewriting.trans (rewriting.run (start ▸ run)) ?_
        exact ih _ rfl

theorem runRounds (passes : List Pass) (rounds round : Nat) (progress : Progress) :
    related progress.function (progress.runRounds passes rounds round).function := by
  induction rounds generalizing round progress with
  | zero => exact rewriting.refl _
  | succ rounds ih =>
      have step := rewriting.runPasses round passes progress rfl
      rw [Progress.runRounds]
      dsimp only
      split
      · exact rewriting.trans step (ih (round + 1) _)
      · exact step

theorem optimizeFunction (optimizer : Optimizer) (function : Function) :
    related function (optimizer.optimizeFunction function).function := by
  unfold Optimizer.optimizeFunction
  dsimp only
  split
  · exact rewriting.refl _
  · split <;> exact rewriting.runRounds optimizer.passes _ 0 { function, stats := optimizer.stats }

theorem optimizeFunctions (optimizer : Optimizer) (functions : List Function) :
    List.Forall₂ related functions (optimizer.optimizeFunctions functions).functions := by
  induction functions generalizing optimizer with
  | nil => exact .nil
  | cons function rest ih =>
      have first := rewriting.optimizeFunction optimizer function
      rw [Optimizer.optimizeFunctions]
      dsimp only
      split
      · exact .cons first (List.forall₂_same.mpr fun other _ => rewriting.refl other)
      · exact .cons first (ih _)

/-- The functions of an optimized module are related to those of the module, one for one. -/
theorem optimize (optimizer : Optimizer) (module : Module) :
    List.Forall₂ related module.functions (optimizer.optimize module).1.functions :=
  rewriting.optimizeFunctions optimizer module.functions

end Rewriting

end Pipeline

/-! ### Heads -/

/-- Two functions with the same name, parameters and result. -/
structure Function.SameHead (function other : Function) : Prop where
  name_eq : other.name = function.name
  params_eq : other.params = function.params
  result_eq : other.result = function.result

namespace Function

variable {function other : Function}

theorem SameHead.refl (function : Function) : function.SameHead function := ⟨rfl, rfl, rfl⟩

theorem SameHead.trans {last : Function} (first : function.SameHead other)
    (second : other.SameHead last) : function.SameHead last :=
  ⟨second.name_eq.trans first.name_eq, second.params_eq.trans first.params_eq,
    second.result_eq.trans first.result_eq⟩

theorem SameHead.signature_eq (head : function.SameHead other) :
    other.signature = function.signature := by
  rw [signature, signature, head.params_eq, head.result_eq]

/-- A function with the same head whose instructions are among those of another one. -/
structure Trims (function trimmed : Function) : Prop where
  head : function.SameHead trimmed
  instrs_subset : trimmed.instrs ⊆ function.instrs

theorem Trims.refl (function : Function) : function.Trims function :=
  ⟨.refl function, List.Subset.refl _⟩

theorem Trims.trans {last : Function} (first : function.Trims other) (second : other.Trims last) :
    function.Trims last :=
  ⟨first.head.trans second.head, fun _ kept => first.instrs_subset (second.instrs_subset kept)⟩

theorem instrs_modify {id : Nat} {change : Block → Block}
    (keeps : ∀ block, (change block).instrs = block.instrs) :
    (function.modify id change).instrs = function.instrs := by
  rw [instrs, modify, List.flatMap_map, instrs]
  congr 1
  funext block
  split
  · exact keeps block
  · rfl

/-- Forgetting an edge changes no instruction. -/
theorem instrs_removeEdge (function : Function) (source target : BlockName) :
    (function.removeEdge source target).instrs = function.instrs := by
  rw [removeEdge, instrs_modify, instrs_modify]
  · exact fun _ => rfl
  · exact fun _ => rfl

/-- Telling blocks their places changes no instruction. -/
theorem instrs_renumber (function : Function) : function.renumber.instrs = function.instrs := by
  have same : function.renumber.blocks.map Block.instrs = function.blocks.map Block.instrs := by
    refine List.ext_getElem (by simp [renumber]) fun index _ _ => ?_
    simp [renumber]
  rw [instrs, List.flatMap_def, same, instrs, List.flatMap_def]

theorem removeEdge_trims (function : Function) (source target : BlockName) :
    function.Trims (function.removeEdge source target) :=
  ⟨⟨rfl, rfl, rfl⟩, by rw [instrs_removeEdge]; exact List.Subset.refl _⟩

/-- Steps that trim, one after the other. -/
theorem foldl_trims {α : Type} {step : Function → α → Function}
    (trims : ∀ function item, Trims function (step function item)) (items : List α)
    (function : Function) : function.Trims (items.foldl step function) := by
  induction items generalizing function with
  | nil => exact .refl function
  | cons item rest ih => exact (trims function item).trans (ih _)

theorem detach_trims (function : Function) (block : Block) :
    function.Trims (function.detach block) :=
  foldl_trims (fun function target => function.removeEdge_trims block.name target) _ function

theorem dropUnreachable_trims (function : Function) :
    function.Trims function.dropUnreachable.1 := by
  unfold dropUnreachable
  dsimp only
  split
  · exact .refl function
  · have detached := foldl_trims detach_trims
      (function.blocks.filter fun block => !function.reachable.contains block.name.id) function
    refine detached.trans ⟨⟨rfl, rfl, rfl⟩, ?_⟩
    intro instr member
    rw [instrs_renumber] at member
    obtain ⟨block, within, there⟩ := List.mem_flatMap.mp member
    exact List.mem_flatMap.mpr ⟨block, List.mem_of_mem_filter within, there⟩

theorem keepInstrs_trims (function : Function) (keep : Instr → Bool) :
    function.Trims (function.keepInstrs keep).1 := by
  refine ⟨⟨rfl, rfl, rfl⟩, ?_⟩
  intro instr member
  simp only [keepInstrs, instrs, List.mem_flatMap, List.mem_map] at member ⊢
  obtain ⟨_, ⟨block, within, rfl⟩, kept⟩ := member
  exact ⟨block, within, List.mem_of_mem_filter kept⟩

theorem sweep_trims (function : Function) : function.Trims function.sweep.1 := by
  have blocks := function.dropUnreachable_trims
  have stores : Trims _ function.dropUnreachable.1.dropDeadStores.1 := keepInstrs_trims _ _
  have unused : Trims _ function.dropUnreachable.1.dropDeadStores.1.dropUnused.1 :=
    keepInstrs_trims _ _
  exact (blocks.trans stores).trans unused

theorem sweepWithin_trims (rounds : Nat) (function : Function) :
    function.Trims (function.sweepWithin rounds).1 := by
  induction rounds generalizing function with
  | zero => exact .refl function
  | succ rounds ih =>
      rw [sweepWithin]
      dsimp only
      split
      · exact function.sweep_trims.trans (ih _)
      · exact function.sweep_trims

/-- Dead code elimination only takes instructions away. -/
theorem eliminateDeadCode_trims (function : Function) :
    function.Trims function.eliminateDeadCode.1 :=
  sweepWithin_trims _ function

/-- The instructions behind folding, before edges are forgotten. -/
theorem foldConstants_trims (function : Function) :
    Trims { function with blocks := (Folding.onBlocks {} function.blocks).2.1 }
      function.foldConstants.1 :=
  foldl_trims (fun function (edge : BlockName × BlockName) =>
    function.removeEdge_trims edge.1 edge.2) _ _

/-- Folding keeps the head of a function. -/
theorem foldConstants_head (function : Function) : function.SameHead function.foldConstants.1 := by
  have head := function.foldConstants_trims.head
  exact ⟨head.name_eq, head.params_eq, head.result_eq⟩

end Function

/-! ### Interfaces -/

theorem sameHead_rewriting : Rewriting Function.SameHead where
  refl := .refl
  trans := .trans
  folding := Function.foldConstants_head
  deadCode function := function.eliminateDeadCode_trims.head

/-- Functions with the same heads are found under the same names. -/
theorem find?_map_signature {functions others : List Function}
    (heads : List.Forall₂ Function.SameHead functions others) (name : Bytes) :
    (others.find? fun function => function.name == name).map Function.signature =
      (functions.find? fun function => function.name == name).map Function.signature := by
  induction heads with
  | nil => rfl
  | cons head _ ih =>
      rw [List.find?_cons, List.find?_cons, head.name_eq]
      split
      · exact congrArg some head.signature_eq
      · exact ih

end ScriptCompiler.IR
