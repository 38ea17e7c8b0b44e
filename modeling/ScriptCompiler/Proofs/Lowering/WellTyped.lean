import ScriptCompiler.Proofs.Lowering.BuiltModule
import ScriptCompiler.Proofs.Optimize.Typing
import ScriptCompiler.Proofs.Syntax.Parsed

/-!
# Built modules are well typed

The checks of lowering, one by one, make the code that it emits well typed, and no optimizer changes
that.
-/

namespace ScriptCompiler.Lowering

open IR

variable {options : EntryOptions} {program : Program}

theorem build_typed {file : SourceFile} {built : Built} (written : program.Written)
    (run : build options file program = .ok built) : built.module.WellTyped := by
  obtain ⟨signature?, opened, last, translates⟩ := build_translates written run
  exact fun function member => (translates.sound function member).wellTyped

theorem operand_ne_void {module : Module} (typed : module.WellTyped) :
    ∀ function ∈ module.functions, ∀ instr ∈ function.instrs, ∀ value ∈ instr.operands,
      value.type ≠ .void := by
  intro function member instr within value read
  obtain ⟨types, functionTyped⟩ := typed function member
  exact ((functionTyped.instrs instr within).typed.operands_isValue value read).1

/-- **A built module is well typed, before and behind any optimizer.**  So no operand is without a
value. -/
theorem build_wellTyped {origin : Origin} {tokens : List Token} {file : SourceFile} {built : Built}
    (parsed : Program.ofTokens origin tokens = .ok program)
    (run : build options file program = .ok built) (optimizer : Optimizer) :
    ∀ module ∈ [built.module, (optimizer.optimize built.module).1],
      module.WellTyped ∧ ∀ function ∈ module.functions, ∀ instr ∈ function.instrs,
        ∀ value ∈ instr.operands, value.type ≠ .void := by
  have before := build_typed (Program.written_of_ofTokens parsed) run
  have behind := before.optimize optimizer
  intro module member
  simp only [List.mem_cons, List.not_mem_nil, or_false] at member
  rcases member with rfl | rfl
  · exact ⟨before, operand_ne_void before⟩
  · exact ⟨behind, operand_ne_void behind⟩

/-- A function and a call of it: `func twice(x int) int { return x + x; } print(twice(2));`. -/
def callTokens : List Token :=
  [⟨.funcKeyword, "func", {}⟩, ⟨.identifier, "twice", {}⟩, ⟨.leftParen, "(", {}⟩,
    ⟨.identifier, "x", {}⟩, ⟨.identifier, "int", {}⟩, ⟨.rightParen, ")", {}⟩,
    ⟨.identifier, "int", {}⟩, ⟨.leftBrace, "\x7b", {}⟩, ⟨.returnKeyword, "return", {}⟩,
    ⟨.identifier, "x", {}⟩, ⟨.plus, "+", {}⟩, ⟨.identifier, "x", {}⟩, ⟨.semicolon, ";", {}⟩,
    ⟨.rightBrace, "\x7d", {}⟩, ⟨.identifier, "print", {}⟩, ⟨.leftParen, "(", {}⟩,
    ⟨.identifier, "twice", {}⟩, ⟨.leftParen, "(", {}⟩, ⟨.int, "2", {}⟩, ⟨.rightParen, ")", {}⟩,
    ⟨.rightParen, ")", {}⟩, ⟨.semicolon, ";", {}⟩]

theorem build_wellTyped_call : ∃ program built,
    Program.ofTokens ⟨"call", "<main>"⟩ callTokens = .ok program ∧
      build {} ⟨"call.tss", []⟩ program = .ok built ∧ built.module.functions.length = 2 ∧
      ((Optimizer.ofLevel 2).optimize built.module).1.WellTyped := by
  have check : (match Program.ofTokens ⟨"call", "<main>"⟩ callTokens with
      | .error _ => false
      | .ok program =>
          match build {} ⟨"call.tss", []⟩ program with
          | .error _ => false
          | .ok built => built.module.functions.length == 2) = true := by decide +kernel
  split at check
  · cases check
  · rename_i program parsed
    split at check
    · cases check
    · rename_i built run
      refine ⟨program, built, parsed, run, eq_of_beq check, ?_⟩
      exact (build_wellTyped parsed run (Optimizer.ofLevel 2) _
        (List.mem_cons_of_mem _ (List.mem_singleton_self _))).1

end ScriptCompiler.Lowering
