import ScriptCompiler.Proofs.Compilation.StartingPoint
import ScriptCompiler.Proofs.LLVM.Completion
import ScriptCompiler.Proofs.Statics.Output

/-!
# When a unit has no code

The module of a unit has all that generation relies on, whatever the optimizer made of it.  So there
is one way for generation to fail: the program calls the output function, which declares the
external function behind it, and has a function with the name of that one itself
(`CompiledUnit.generate_fails_iff`).
-/

namespace ScriptCompiler

open IR Lowering LLVM

/-- A function is defined in a module exactly if the program declares it or if it is the one made
for the statements at top level. -/
theorem Lowering.Translates.function?_isSome_iff {options : EntryOptions} {stem : Bytes}
    {program : Program} {module : IR.Module} {signature? : Bytes → Option Signature}
    {start last : State}
    (translates : Translates options stem program module signature? start last) {name : Bytes}
    (other : name ≠ synthesizedEntry stem) :
    (module.function? name).isSome ↔
      ∃ declaration ∈ program.functions, declaration.name.name = name := by
  have names := translates.lowers.names_eq
  have listed : (module.function? name).isSome ↔
      name ∈ (Semantics.sourceFunctions options stem program).map
        Semantics.SourceFunction.name := by
    rw [← names, IR.Module.function?, List.find?_isSome, List.mem_map]
    simp
  rw [listed]
  constructor
  · intro member
    obtain ⟨source, there, rfl⟩ := List.mem_map.mp member
    rcases source_named there with ⟨declaration, declared, same, -⟩ | ⟨same, -⟩
    · exact ⟨declaration, declared, same.symm⟩
    · exact absurd same other
  · rintro ⟨declaration, declared, rfl⟩
    unfold Semantics.sourceFunctions
    dsimp only
    split
    · rw [List.map_map]
      exact List.mem_map.mpr ⟨declaration, declared, rfl⟩
    · rw [List.map_cons, List.map_map]
      exact List.mem_cons_of_mem _ (List.mem_map.mpr ⟨declaration, declared, rfl⟩)

namespace CompiledUnit

namespace Compiled

variable {options : CompilerOptions} {file : SourceFile} {unit : CompiledUnit} {built : Built}
  (compiled : Compiled options file unit built)
include compiled

/-- An optimizer leaves it alone what a module knows. -/
theorem knows_eq : unit.module.knows = built.module.knows := by
  rw [compiled.module_eq]
  exact Module.knows_congr (map_eq_of_forall₂ IR.Function.name
    (sameHead_rewriting.optimize (optimizer options) built.module) fun _ _ head => head.name_eq) rfl

/-- The functions of a unit can be generated. -/
theorem generable : ∀ function ∈ unit.module.functions, Generable unit.module function := by
  obtain ⟨-, read⟩ := SourceFile.ofTokens_of_parse compiled.parsed
  have written := Program.written_of_ofTokens read
  obtain ⟨signature?, opened, last, translates⟩ := build_translates written compiled.lowered
  have orderly := translates.orderly compiled.verified
  have typed := (build_typed written compiled.lowered).optimize (optimizer options)
  rw [← compiled.module_eq] at typed
  have interface : unit.module.interface = built.module.interface := by
    rw [compiled.module_eq]
    exact (optimizer options).interface_optimize built.module
  intro function member
  obtain ⟨original, within, keeps⟩ := exists_of_forall₂
    ((foldable_rewriting built.module.knows built.module.interface.texts).optimize
      (optimizer options) built.module) (compiled.module_eq ▸ member)
  have foldable := keeps ⟨orderly original within, (translates.sound original within).inRange⟩
  obtain ⟨types, wellTyped⟩ := typed function member
  refine ⟨foldable.grounded, interface ▸ foldable.inRange,
    fun instr there => (wellTyped.instrs instr there).typed, fun instr there callee called => ?_⟩
  obtain ⟨block, isBlock, isInstr⟩ := List.mem_flatMap.mp there
  rw [compiled.knows_eq]
  exact ((Function.violations_eq_nil_iff.mp foldable.wellFormed).1 block isBlock).callees
    instr isInstr callee called

/-- A function is defined in a unit exactly if the program declares it, unless it is the one made
for the statements at top level. -/
theorem defines_iff {name : Bytes} (other : name ≠ synthesizedEntry file.stem) :
    (unit.module.function? name).isSome ↔
      ∃ declaration ∈ unit.program.functions, declaration.name.name = name := by
  obtain ⟨-, read⟩ := SourceFile.ofTokens_of_parse compiled.parsed
  obtain ⟨_, _, _, translates⟩ :=
    build_translates (Program.written_of_ofTokens read) compiled.lowered
  have known : (unit.module.function? name).isSome = (built.module.function? name).isSome :=
    congrFun compiled.knows_eq ⟨.defined, name⟩
  rw [known]
  exact translates.function?_isSome_iff other

/-- The output function is declared exactly if the program calls it. -/
theorem formatter_mem_iff :
    formatter ∈ unit.module.externals ↔ unit.program.outputs options.entry = true := by
  have same : unit.module.externals = built.module.externals := by
    rw [compiled.module_eq]
    rfl
  rw [← externals_ne_nil_iff compiled.lowered, ← same]
  rcases compiled.named.externals with none_ | one
  · simp [none_]
  · simp [one]

end Compiled

/-- **Generation fails only on a conflict with the output function.**  It fails exactly if the
program declares a function with the name of the external function that output is made with and
calls the output function somewhere, and then because of that name. -/
theorem generate_fails_iff {options : CompilerOptions} {file : SourceFile} {unit : CompiledUnit}
    (compiled : (compile options file).outcome.1 = .ok unit) (settings : LLVM.Options)
    (stop : Stop) :
    generate settings unit.module = .error stop ↔
      stop = .fault none (.conflict formatter.name) ∧
        (∃ declaration ∈ unit.program.functions, declaration.name.name = formatter.name) ∧
          unit.program.outputs options.entry = true := by
  obtain ⟨built, compiled⟩ := compile_ok compiled
  obtain ⟨entry, -, found, -⟩ := compiled.exists_entry
  have apart : formatter.name ≠ synthesizedEntry file.stem := by
    intro same
    have first : formatter.name.head? = (Bytes.ofString "load_" ++ file.stem).head? :=
      congrArg _ same
    rw [List.head?_append_of_ne_nil _ (by decide)] at first
    exact absurd first (by decide)
  rw [LLVM.generate_eq_error_iff compiled.generable (by rw [found]; rfl) settings compiled.named,
    compiled.formatter_mem_iff, compiled.defines_iff apart]
  exact and_congr_right fun _ => and_comm

/-- A file whose program calls the output function and has a function with the name behind it. -/
def conflictFile : SourceFile :=
  ⟨"test.tss", "func printf(x int) \x7b if (false) \x7b print(x); \x7d \x7d"⟩

theorem generate_fails_iff_conflict : ∃ unit, (compile {} conflictFile).outcome.1 = .ok unit ∧
    generate { mainWrapper := true } unit.module =
      .error (.fault none (.conflict formatter.name)) := by
  obtain ⟨unit, compiled, check⟩ := exists_ok_of_any
    (show ((compile {} conflictFile).outcome.1.toOption.any fun unit =>
      (unit.program.functions.any fun declaration => declaration.name.name == formatter.name) &&
        unit.program.outputs ({} : CompilerOptions).entry) = true by
      simp only [conflictFile, Bytes.ofString_eq]
      decide +kernel)
  simp only [Bool.and_eq_true, List.any_eq_true, beq_iff_eq] at check
  exact ⟨unit, compiled, (generate_fails_iff compiled _ _).mpr ⟨rfl, check⟩⟩

end CompiledUnit

end ScriptCompiler
