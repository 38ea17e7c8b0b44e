import ScriptCompiler.Compilation.Unit
import ScriptCompiler.Proofs.Lowering.BuiltModule
import ScriptCompiler.Proofs.Syntax.Parsed

/-!
# Well-formed modules

The builder keeps to the rule that nothing stands behind the terminator of a block: a statement
behind one opens a block of its own.  The slots of parameters are made without asking.  They come
first in a function, so that only the statements at top level can stand before them, in the
program's own entry function.  This is the one way in which a built module is ill formed.
-/

namespace ScriptCompiler.Lowering

open IR Semantics

variable {options : EntryOptions} {program : Program}

/-- Whether the parameters of the entry function get their slots behind a terminator: the statements
at top level end in a return, and they stand in an entry function of the program's own that has
parameters. -/
def SlotsBehindReturn (options : EntryOptions) (program : Program) : Prop :=
  Stmt.closesAll program.statements = true ∧
    ∃ declaration ∈ program.functions, isEntry options declaration = true ∧ declaration.params ≠ []

theorem slotsBehindReturn_iff (stem : Bytes) :
    SlotsBehindReturn options program ↔
      ∃ source ∈ sourceFunctions options stem program, SourceSpillsLate source := by
  have own : (∃ source ∈ program.functions.map fun declaration =>
        sourceFunction (if isEntry options declaration then some program.statements else none)
          declaration, SourceSpillsLate source) ↔ SlotsBehindReturn options program := by
    simp only [List.mem_map, exists_exists_and_eq_and, sourceSpillsLate_iff, SpillsLate,
      SlotsBehindReturn]
    constructor
    · rintro ⟨declaration, member, closes, given⟩
      cases entry : isEntry options declaration with
      | true =>
          rw [entry] at closes
          exact ⟨closes, declaration, member, entry, given⟩
      | false =>
          rw [entry] at closes
          exact absurd closes (by simp [Stmt.closesAll])
    · rintro ⟨closes, declaration, member, entry, given⟩
      refine ⟨declaration, member, ?_, given⟩
      rw [entry]
      exact closes
  rw [← own]
  dsimp only [sourceFunctions]
  split
  · rfl
  · constructor
    · rintro ⟨source, member, late⟩
      exact ⟨source, List.mem_cons_of_mem _ member, late⟩
    rintro ⟨source, member, late⟩
    rcases List.mem_cons.mp member with rfl | later
    · exact absurd late.2 (by simp [topLevelFunction])
    · exact ⟨source, later, late⟩

/-- **A module is well formed, and passes the check behind lowering, exactly if no slot of a
parameter is made behind a terminator.** -/
theorem build_wellFormed_iff {origin : Origin} {tokens : List Token} {file : SourceFile}
    {built : Built} (parsed : Program.ofTokens origin tokens = .ok program)
    (run : build options file program = .ok built) :
    (built.module.violations = [] ↔ ¬ SlotsBehindReturn options program) ∧
      ((CompiledUnit.verify [] built.module).outcome.1 = .ok () ↔
        ¬ SlotsBehindReturn options program) := by
  obtain ⟨signature?, opened, last, translates⟩ :=
    build_translates (Program.written_of_ofTokens parsed) run
  have wellFormed : built.module.violations = [] ↔ ¬ SlotsBehindReturn options program := by
    rw [translates.violations_iff, slotsBehindReturn_iff file.stem]
    simp only [not_exists, not_and]
  refine ⟨wellFormed, ?_⟩
  rw [← wellFormed]
  unfold CompiledUnit.verify
  cases built.module.violations with
  | nil => exact ⟨fun _ => rfl, fun _ => rfl⟩
  | cons violation others => exact ⟨fun passes => (nomatch passes), fun none => (nomatch none)⟩

/-- A return at top level before an entry function with a parameter. -/
def lateTokens : List Token :=
  [⟨.returnKeyword, "return", {}⟩, ⟨.int, "1", {}⟩, ⟨.semicolon, ";", {}⟩,
    ⟨.funcKeyword, "func", {}⟩, ⟨.identifier, "main", {}⟩, ⟨.leftParen, "(", {}⟩,
    ⟨.identifier, "x", {}⟩, ⟨.identifier, "int", {}⟩, ⟨.rightParen, ")", {}⟩,
    ⟨.identifier, "int", {}⟩, ⟨.leftBrace, "\x7b", {}⟩, ⟨.rightBrace, "\x7d", {}⟩]

theorem build_wellFormed_iff_late : ∃ program built,
    Program.ofTokens ⟨"late", "<main>"⟩ lateTokens = .ok program ∧
      build {} ⟨"late.tss", []⟩ program = .ok built ∧ SlotsBehindReturn {} program ∧
      built.module.violations ≠ [] := by
  have check : (match Program.ofTokens ⟨"late", "<main>"⟩ lateTokens with
      | .error _ => false
      | .ok program => Stmt.closesAll program.statements &&
          program.functions.any (fun declaration =>
            isEntry {} declaration && !declaration.params.isEmpty) &&
          match build {} ⟨"late.tss", []⟩ program with
          | .error _ => false
          | .ok _ => true) = true := by decide +kernel
  split at check
  · cases check
  · rename_i program parsed
    simp only [Bool.and_eq_true, List.any_eq_true, Bool.not_eq_true', List.isEmpty_eq_false_iff]
      at check
    obtain ⟨⟨closes, declaration, member, entry, given⟩, runs⟩ := check
    split at runs
    · cases runs
    · rename_i built run
      have late : SlotsBehindReturn {} program := ⟨closes, declaration, member, entry, given⟩
      exact ⟨program, built, parsed, run, late,
        fun none => (build_wellFormed_iff parsed run).1.mp none late⟩

end ScriptCompiler.Lowering
