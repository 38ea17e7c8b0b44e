import ScriptCompiler.Proofs.IR.Progress
import ScriptCompiler.Proofs.Lowering.Dominance
import ScriptCompiler.Proofs.Optimize.Constants
import ScriptCompiler.Proofs.Optimize.DeadCode

/-!
# Optimizers preserve meaning

Every pass keeps what the next one relies on and makes a function that runs like the one before.  So
does an optimizer, whatever its passes and its number of rounds: a call of a built function that
does not trap ends in the same way behind the optimizer, or runs on as it did (`optimize_ends_iff`).
-/

namespace ScriptCompiler.IR

open Semantics

variable {Double : Type} {machine : Machine Double}

/-- Operands of sound functions are in range. -/
theorem Function.Sound.inRange {function : Function} {interface : Interface}
    (sound : function.Sound interface) : function.InRange interface.texts := by
  intro instr member value read
  rcases (sound.typed instr member).operand read with ⟨type, ⟨-, denotes⟩, -⟩ | ⟨place, rfl, -⟩
  · cases value with
    | constant | string => exact denotes.1
    | param | temp => trivial
    | slot | stray => exact denotes.elim
  · trivial

theorem Function.InRange.foldConstants {function : Function} {texts : Nat}
    (inRange : function.InRange texts) : function.foldConstants.1.InRange texts := by
  intro instr member
  obtain ⟨block, folded⟩ : ∃ block ∈ (Folding.onBlocks {} function.blocks).2.1,
    instr ∈ block.instrs := by
    have same : function.foldConstants.1.instrs =
        ((Folding.onBlocks {} function.blocks).2.1).flatMap Block.instrs :=
      instrs_removeEdges _ { function with blocks := (Folding.onBlocks {} function.blocks).2.1 }
    rw [same] at member
    exact List.mem_flatMap.mp member
  obtain ⟨source, within, -, folds⟩ := exists_of_forall₂ inRange.folded folded.1
  obtain ⟨original, there, folding⟩ := exists_of_forall₂ folds folded.2
  exact folding.inRange (inRange original (List.mem_flatMap.mpr ⟨source, within, there⟩))

/-- What passes rely on: a function is orderly and its operands are in range. -/
structure Function.Foldable (known : Callee → Bool) (texts : Nat) (function : Function) : Prop
    extends function.Orderly known where
  /-- Operands are in range. -/
  inRange : function.InRange texts

theorem Function.Foldable.foldConstants {known : Callee → Bool} {texts : Nat} {function : Function}
    (foldable : function.Foldable known texts) : function.foldConstants.1.Foldable known texts :=
  ⟨foldable.toOrderly.foldConstants, foldable.inRange.foldConstants⟩

theorem Function.Foldable.eliminateDeadCode {known : Callee → Bool} {texts : Nat}
    {function : Function}
    (foldable : function.Foldable known texts) :
    function.eliminateDeadCode.1.Foldable known texts :=
  ⟨foldable.toOrderly.eliminateDeadCode, fun instr member =>
    foldable.inRange instr (function.eliminateDeadCode_trims.instrs_subset member)⟩

theorem meaning_rewriting (known : Callee → Bool) (texts : Nat) (strings : List Bytes)
    (folds : machine.Folds) :
    Rewriting fun function other => function.Foldable known texts →
      other.Foldable known texts ∧ other.name = function.name ∧
        function.Simulates machine strings other where
  refl function foldable := ⟨foldable, rfl, .refl function⟩
  trans first second foldable :=
    have middle := first foldable
    have behind := second middle.1
    ⟨behind.1, behind.2.1.trans middle.2.1, middle.2.2.trans behind.2.2⟩
  folding function foldable :=
    ⟨foldable.foldConstants, function.foldConstants_head.name_eq,
      function.simulates_foldConstants folds foldable.grounded foldable.inRange⟩
  deadCode function foldable :=
    ⟨foldable.eliminateDeadCode, function.eliminateDeadCode_trims.head.name_eq,
      foldable.toOrderly.simulates_eliminateDeadCode⟩

/-- **Calls of optimized functions go like those of the functions.** -/
theorem Optimizer.call_upto {module : Module} {known : Callee → Bool} {texts : Nat}
    (folds : machine.Folds)
    (foldable : ∀ function ∈ module.functions, function.Foldable known texts)
    (optimizer : Optimizer) (bound : Nat) :
    (module.call machine bound).Upto ((optimizer.optimize module).1.call machine bound) := by
  have functions := (meaning_rewriting known texts module.strings folds).optimize optimizer module
  have strings : (optimizer.optimize module).1.strings = module.strings := rfl
  refine Module.call_upto strings ?_ bound
  exact forall₂_imp_mem functions fun function member other keeps =>
    (keeps (foldable function member)).2

end ScriptCompiler.IR

namespace ScriptCompiler.Lowering

open IR Semantics

variable {Double : Type} {machine : Machine Double}

/-- A function is found under its name. -/
theorem function?_of_mem {module : Module} (once : (module.functions.map Function.name).Nodup)
    {function : Function} (member : function ∈ module.functions) :
    module.function? function.name = some function := by
  cases found : module.function? function.name with
  | none => exact absurd (List.find?_eq_none.mp found function member) (by simp)
  | some other =>
      have named : other.name = function.name := by simpa using List.find?_some found
      exact congrArg
        some (List.inj_on_of_nodup_map once (List.mem_of_find?_eq_some found) member named)

/-- Calls that go alike at every bound end alike. -/
theorem ends_iff_of_eq {call call' : Nat → Call Double} {name : Bytes}
    {arguments : List (Datum Double)}
    (same : ∀ bound, call' bound name arguments [] = call bound name arguments []) :
    (∀ ending, Call.Ends call' name arguments ending ↔ Call.Ends call name arguments ending) ∧
      (Call.Diverges call' name arguments ↔ Call.Diverges call name arguments) := by
  simp only [Call.Ends, Call.Diverges, same, implies_true, and_self]

/-- **Optimizers preserve meaning.**  A call of a function of a built module that does not trap ends
behind an optimizer exactly as it did, and runs on exactly if it did. -/
theorem optimize_ends_iff {options : EntryOptions} {origin : Origin} {tokens : List Token}
    {program : Program} {file : SourceFile} {built : Built}
    (parsed : Program.ofTokens origin tokens = .ok program)
    (run : build options file program = .ok built) (verified : built.module.violations = [])
    (folds : machine.Folds) (optimizer : Optimizer) {function : Function}
    (member : function ∈ built.module.functions) {arguments : List (Datum Double)}
    (typed : arguments.map Datum.type = function.params.map Place.type)
    (safe : ∀ trace, ¬ Call.Ends (built.module.call machine) function.name arguments
      (.trapped trace)) :
    (∀ ending, Call.Ends ((optimizer.optimize built.module).1.call machine) function.name
      arguments ending ↔
      Call.Ends (built.module.call machine) function.name arguments ending) ∧
    (Call.Diverges ((optimizer.optimize built.module).1.call machine) function.name arguments ↔
      Call.Diverges (built.module.call machine) function.name arguments) := by
  obtain ⟨signature?, opened, last, translates⟩ :=
    build_translates (Program.written_of_ofTokens parsed) run
  have sound := translates.sound
  have orderly := translates.orderly verified
  refine ends_iff_of_eq fun bound => ?_
  have upto := Optimizer.call_upto folds
    (fun function member => ⟨orderly function member, (sound function member).inRange⟩)
    optimizer bound function.name arguments []
  have signature : built.module.interface.signature? function.name = some function.signature := by
    rw [Module.interface]
    exact congrArg (Option.map Function.signature) (function?_of_mem translates.names_nodup member)
  have fine : FineRun function.result
    (built.module.call machine bound function.name arguments []) :=
    Module.call_sound sound verified bound function.name function.signature signature
      arguments typed []
  exact upto.eq_of_fine (fun trace trapped => safe trace ⟨bound, trapped⟩) fine.1

/-- The machine that computes with floating-point numbers as folding does. -/
def binary64 : Machine Float where
  ofFloat := id
  add := (· + ·)
  sub := (· - ·)
  mul := (· * ·)
  div := (· / ·)
  rem := Binary64.remainder
  neg := (- ·)
  eq left right := !left.isNaN && !right.isNaN && left == right
  ne left right := !left.isNaN && !right.isNaN && left != right
  lt left right := !left.isNaN && !right.isNaN && decide (left < right)
  le left right := !left.isNaN && !right.isNaN && decide (left ≤ right)
  gt left right := !left.isNaN && !right.isNaN && decide (right < left)
  ge left right := !left.isNaN && !right.isNaN && decide (right ≤ left)
  printed _ := 0#32

theorem binary64_folds : binary64.Folds where
  add _ _ := rfl
  sub _ _ := rfl
  mul _ _ := rfl
  div _ _ := rfl
  rem _ _ := rfl
  neg _ := rfl
  eq _ _ := rfl
  ne _ _ := rfl
  lt _ _ := rfl
  le _ _ := rfl
  gt _ _ := rfl
  ge _ _ := rfl

/-- Whether a run returns a word without any output. -/
def returnsWord (word : BitVec 32) : Run Float (Option (Datum Float) × Trace Float) → Bool
  | .done (some (.int value), []) => value == word
  | _ => false

theorem eq_of_returnsWord {word : BitVec 32} {run : Run Float (Option (Datum Float) × Trace Float)}
    (returns : returnsWord word run = true) :
    run = (Ending.returned (some (.int word)) []).run := by
  unfold returnsWord at returns
  split at returns
  · rw [eq_of_beq returns]
    rfl
  · cases returns

/-- A loop whose test and whose way out are decided at once still ends with zero. -/
theorem optimize_ends_iff_loop : ∃ program built function,
    Program.ofTokens ⟨"loop", "<main>"⟩ loopTokens = .ok program ∧
      build {} ⟨"loop.tss", []⟩ program = .ok built ∧ built.module.violations = [] ∧
      function ∈ built.module.functions ∧
      Call.Ends (((Optimizer.ofLevel 1).optimize built.module).1.call binary64) function.name []
        (.returned (some (.int 0#32)) []) := by
  obtain ⟨program, built, parsed, run, check⟩ := exists_built ⟨"loop", "<main>"⟩
    loopTokens {} ⟨"loop.tss", []⟩
    (fun built => built.module.violations.isEmpty && built.module.functions.any fun function =>
      function.params.isEmpty &&
        returnsWord 0#32 (built.module.call binary64 9 function.name [] []))
    (by decide +kernel)
  simp only [Bool.and_eq_true, List.isEmpty_iff, List.any_eq_true] at check
  obtain ⟨verified, function, member, params, returns⟩ := check
  have ends : Call.Ends (built.module.call binary64) function.name []
      (.returned (some (.int 0#32)) []) := ⟨9, eq_of_returnsWord returns⟩
  have safe : ∀ trace, ¬ Call.Ends (built.module.call binary64) function.name [] (.trapped trace) :=
    fun trace traps => nomatch ends.unique (fun _ _ => Module.call_below _) traps
  have alike := optimize_ends_iff parsed run verified binary64_folds (Optimizer.ofLevel 1) member
    (by simp [params]) safe
  exact ⟨program, built, function, parsed, run, verified, member, (alike.1 _).mpr ends⟩

end ScriptCompiler.Lowering
