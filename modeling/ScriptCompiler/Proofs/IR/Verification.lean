import Mathlib.Data.List.Basic
import ScriptCompiler.IR.Module

/-!
# Well-formed modules

What it means for a module that nothing is wrong with it, function by function and block by block.
-/

namespace ScriptCompiler.IR

/-- The function that an instruction calls. -/
def Instr.callee? : Instr → Option Callee
  | .call _ callee _ => some callee
  | _ => none

/-- Terminators stand at the end of the code alone. -/
def Shaped (instrs : List Instr) : Prop := ∀ instr ∈ instrs.dropLast, instr.isTerminator = false

theorem shaped_append_singleton {instrs : List Instr} {instr : Instr} :
    Shaped (instrs ++ [instr]) ↔ ∀ other ∈ instrs, other.isTerminator = false := by
  simp [Shaped]

/-- The beginning of shaped code is shaped. -/
theorem Shaped.of_initial {shorter longer : List Instr} (shaped : Shaped longer)
    (beginning : shorter <+: longer) : Shaped shorter := by
  obtain ⟨rest, rfl⟩ := beginning
  intro instr within
  refine shaped instr ?_
  rw [List.dropLast_append]
  split
  · exact within
  · exact List.mem_append_left _ ((List.dropLast_sublist _).subset within)

/-- Shaped code that does not end in a terminator has none. -/
theorem Shaped.forall_mem {instrs : List Instr} (shaped : Shaped instrs)
    (unfinished : ∀ instr ∈ instrs.getLast?, instr.isTerminator = false) :
    ∀ instr ∈ instrs, instr.isTerminator = false := by
  rcases List.eq_nil_or_concat instrs with rfl | ⟨body, last, rfl⟩
  · simp
  · simp only [List.concat_eq_append, List.getLast?_append, List.getLast?_singleton, Option.some_or,
      Option.mem_def, Option.some.injEq, forall_eq'] at unfinished
    simp only [List.concat_eq_append, List.mem_append, List.mem_singleton]
    rintro instr (within | rfl)
    · exact shaped_append_singleton.mp (by simpa using shaped) instr within
    · exact unfinished

/-- A block of a function is well formed in a module that knows some callees. -/
structure Block.WellFormed (function : Function) (known : Callee → Bool) (block : Block) :
    Prop where
  /-- The block ends in a terminator. -/
  terminated : block.isTerminated = true
  /-- It has no terminator before its end. -/
  shaped : Shaped block.instrs
  /-- Its jumps stay in the function. -/
  owned : ∀ instr ∈ block.instrs, ∀ target ∈ instr.targets, function.owns target = true
  /-- Its calls name known functions. -/
  callees : ∀ instr ∈ block.instrs, ∀ callee ∈ instr.callee?, known callee = true

theorem Block.isTerminated_iff {block : Block} :
    block.isTerminated = true ↔
      ∃ (body : List Instr) (last : Instr), block.instrs = body ++ [last] ∧
        last.isTerminator = true := by
  unfold Block.isTerminated Block.terminator?
  rcases List.eq_nil_or_concat block.instrs with empty | ⟨body, last, split⟩
  · simp [empty]
  · rw [split]
    simp only [List.concat_eq_append, List.getLast?_append, List.getLast?_singleton, Option.some_or,
      Option.isSome_filter, Option.any_some]
    constructor
    · intro terminator
      exact ⟨body, last, rfl, terminator⟩
    · rintro ⟨body', last', same, terminator⟩
      obtain ⟨-, rfl⟩ := List.append_inj' same rfl |>.imp_right (List.cons.inj · |>.1)
      exact terminator

variable {function : Function} {known : Callee → Bool}

theorem shaped_cons {instr : Instr} {rest : List Instr} :
    Shaped (instr :: rest) ↔ (rest ≠ [] → instr.isTerminator = false) ∧ Shaped rest := by
  cases rest with
  | nil => simp [Shaped]
  | cons next rest => simp [Shaped, List.dropLast_cons_of_ne_nil]

theorem Function.instrViolations_eq_nil_iff (instr : Instr) :
    function.instrViolations known instr = [] ↔
      (∀ target ∈ instr.targets, function.owns target = true) ∧
        ∀ callee ∈ instr.callee?, known callee = true := by
  cases instr with
  | jump target => simp [instrViolations, Instr.targets, Instr.callee?]
  | branch condition ifTrue ifFalse => simp [instrViolations, Instr.targets, Instr.callee?]
  | call dest callee arguments => simp [instrViolations, Instr.targets, Instr.callee?]
  | binary | unary | copy | alloca | load | store | ret =>
      simp [instrViolations, Instr.targets, Instr.callee?]

theorem Function.bodyViolations_eq_nil_iff (label : Bytes) (instrs : List Instr) :
    function.bodyViolations known label instrs = [] ↔
      Shaped instrs ∧ ∀ instr ∈ instrs, function.instrViolations known instr = [] := by
  induction instrs with
  | nil => simp [bodyViolations, Shaped]
  | cons instr rest ih =>
      simp only [bodyViolations, List.append_eq_nil_iff, ih, shaped_cons, List.forall_mem_cons]
      have early : (if (!rest.isEmpty && instr.isTerminator) = true then
          [Violation.earlyTerminator function.name label] else []) = [] ↔
          (rest ≠ [] → instr.isTerminator = false) := by
        cases rest <;> cases instr.isTerminator <;> simp
      rw [early]
      tauto

theorem Function.blockViolations_eq_nil_iff (block : Block) :
    function.blockViolations known block = [] ↔ block.WellFormed function known := by
  simp only [blockViolations, List.append_eq_nil_iff, bodyViolations_eq_nil_iff,
    instrViolations_eq_nil_iff]
  constructor
  · rintro ⟨terminated, shaped, single⟩
    refine ⟨?_, shaped, fun instr member => (single instr member).1,
      fun instr member => (single instr member).2⟩
    by_contra open_
    simp [open_] at terminated
  · rintro ⟨terminated, shaped, owned, callees⟩
    exact ⟨by simp [terminated], shaped,
      fun instr member => ⟨owned instr member, callees instr member⟩⟩

theorem Function.violations_eq_nil_iff :
    function.violations known = [] ↔
      (∀ block ∈ function.blocks, block.WellFormed function known) ∧
        ∀ block, function.block? Function.entry = some block → block.predecessors = [] := by
  simp only [violations, List.append_eq_nil_iff, List.flatMap_eq_nil_iff,
    blockViolations_eq_nil_iff]
  refine and_congr_right fun _ => ?_
  cases function.block? entry with
  | none => simp
  | some block => simp

theorem Module.violations_eq_nil_iff {module : Module} :
    module.violations = [] ↔
      (module.entry = [] ∨ (module.function? module.entry).isSome) ∧
        ∀ function ∈ module.functions, function.violations module.knows = [] := by
  simp only [violations, List.append_eq_nil_iff, List.flatMap_eq_nil_iff]
  refine and_congr_left fun _ => ?_
  cases module.entry with
  | nil => simp
  | cons byte rest => simp [Option.isSome_iff_ne_none]

end ScriptCompiler.IR
