import ScriptCompiler.Compilation.Executable
import ScriptCompiler.Proofs.Compilation.Units
import ScriptCompiler.Proofs.LLVM.Symbols
import ScriptCompiler.Proofs.Optimize.Meaning

/-!
# Where a run starts

A run starts at the first of a few names that the listing of a unit defines.  The listing is text,
in which a name may be written in another way than it is spelt, so the entry function of a unit need
not be found under its name; then the wrapper around it is, because it is called `main`
(`Compiler.run_starts`).
-/

namespace ScriptCompiler

open IR Lowering LLVM

/-- The functions that a function calls, in the order of the calls. -/
def LLVM.Function.callees (function : LLVM.Function) : List Bytes :=
  function.blocks.flatMap fun block => block.insts.filterMap fun inst =>
    match inst with
    | .call _ callee _ _ => some callee
    | _ => none

/-! ### Entry functions -/

theorem EntryOptions.entryName_ne_nil (options : EntryOptions) : options.entryName ≠ [] := by
  unfold entryName
  split
  · decide
  · rename_i given
    simpa using given

namespace CompiledUnit.Compiled

variable {options : CompilerOptions} {file : SourceFile} {unit : CompiledUnit} {built : Built}
  (compiled : Compiled options file unit built)
include compiled

theorem entry_eq : unit.module.entry = built.module.entry := by
  rw [compiled.module_eq]
  rfl

theorem entry_ne_nil : unit.module.entry ≠ [] := by
  rw [compiled.entry_eq]
  have run := compiled.lowered
  unfold build at run
  simp only [StateT.run, bind, Except.bind] at run
  split at run
  · cases run
  · rename_i outcome lowered
    obtain ⟨⟨entry, functions⟩, last⟩ := outcome
    cases run
    obtain ⟨_, _, -, ⟨-, same, -⟩ | ⟨-, same, -⟩⟩ := lowerItems_ok lowered
    · exact same ▸ options.entry.entryName_ne_nil
    · exact same ▸ List.append_ne_nil_of_left_ne_nil (by decide) _

theorem named : Named unit.module := by
  obtain ⟨-, read⟩ := SourceFile.ofTokens_of_parse compiled.parsed
  obtain ⟨_, _, _, translates⟩ :=
    build_translates (Program.written_of_ofTokens read) compiled.lowered
  rw [compiled.module_eq]
  exact (translates_named translates (SourceFile.point_notMem compiled.parsed)).optimize _

theorem exists_entry : ∃ entry ∈ unit.module.functions,
    unit.module.function? unit.module.entry = some entry ∧ entry.name = unit.module.entry := by
  obtain ⟨-, read⟩ := SourceFile.ofTokens_of_parse compiled.parsed
  obtain ⟨_, _, _, translates⟩ :=
    build_translates (Program.written_of_ofTokens read) compiled.lowered
  obtain ⟨original, found⟩ := Option.isSome_iff_exists.mp translates.entry
  have same : original.name = built.module.entry := by simpa using List.find?_some found
  have heads := sameHead_rewriting.optimize (optimizer options) built.module
  obtain ⟨entry, member, head⟩ := exists_of_forall₂ heads.flip (List.mem_of_find?_eq_some found)
  rw [← compiled.module_eq] at member
  have named : entry.name = unit.module.entry := by rw [head.name_eq, same, compiled.entry_eq]
  exact ⟨entry, member, named ▸ function?_of_mem compiled.named.names_nodup member, named⟩

end CompiledUnit.Compiled

/-! ### The first candidate -/

/-- The code of the entry function keeps its name: only a function `main` that is not the entry
makes room for a wrapper. -/
theorem exists_emitted {options : Options} {module : IR.Module} {code : LLVM.Module}
    {codes : List LLVM.Function} (emits : EmitsModule options module code codes)
    {entry : IR.Function} (member : entry ∈ module.functions) (named : entry.name = module.entry) :
    ∃ emitted ∈ code.functions, EmitsFunction module (wrapsEntry options module) entry emitted ∧
      emitted.name = module.entry := by
  obtain ⟨emitted, within, made⟩ := exists_of_forall₂ emits.functions.flip member
  refine ⟨emitted, ?_, made, ?_⟩
  · rcases emits.wrapped with ⟨-, same⟩ | ⟨-, _, -, same⟩ <;> rw [same]
    · exact within
    · exact List.mem_append_left _ within
  · rw [made.name_eq, named]
    rcases symbol_eq (wrapsEntry options module) module.entry with plain | ⟨wraps, isMain, -⟩
    · exact plain
    · simp [wrapsEntry, isMain] at wraps

/-- A function called `main` is found in the listing. -/
theorem defines_main {code : LLVM.Module} {function : LLVM.Function}
    (member : function ∈ code.functions) (isMain : function.name = Bytes.ofString "main") :
    (Listing.ofModule code).defines "main" = true := by
  rw [Listing.defines, List.contains_iff_mem, Listing.symbols, ← isMain]
  refine Module.name_mem_definedNames member ?_ ?_ <;> rw [isMain] <;> decide +kernel

/-- The candidates for the start of a run begin with the entry function and `main`. -/
theorem CompiledUnit.startingPoint?_eq {unit : CompiledUnit} {listing : Listing}
    (nonempty : unit.module.entry ≠ []) (found : listing.defines "main" = true) :
    Compiler.startingPoint? unit listing = some unit.module.entry ∨
      unit.module.entry ≠ Bytes.ofString "main" ∧
        Compiler.startingPoint? unit listing = some (Bytes.ofString "main") := by
  have named : unit.module.entry.isEmpty = false := List.isEmpty_eq_false_iff.mpr nonempty
  have usual : EntryOptions.defaultName.isEmpty = false := by decide
  rw [Compiler.startingPoint?, entryCandidates, List.filter_cons_of_pos (by simp [named]),
    List.filter_cons_of_pos (by simp [usual]), List.eraseDups_cons]
  cases first : listing.defines unit.module.entry with
  | true => exact .inl (List.find?_cons_of_pos first)
  | false =>
      have other : unit.module.entry ≠ EntryOptions.defaultName := by
        intro same
        rw [same] at first
        exact absurd (first.symm.trans found) (by decide)
      refine .inr ⟨other, ?_⟩
      rw [List.find?_cons_of_neg (by simp [first]),
        List.filter_cons_of_pos (by simpa using other.symm),
        List.eraseDups_cons]
      exact List.find?_cons_of_pos found

namespace Compiler

/-- **A run starts at the entry function.**  The first name that the listing of a unit defines is
that of the entry function, or it is `main` and belongs to the wrapper, which calls nothing but the
entry function. -/
theorem run_starts {options : CompilerOptions} {file : SourceFile} {unit : CompiledUnit}
    (compiled : (CompiledUnit.compile options file).outcome.1 = .ok unit) {compiler : Compiler}
    {listing : Listing} (rendered : compiler.listing unit = .ok listing) :
    ∃ code entry emitted start, LLVM.generate ⟨compiler.target.triple, true⟩ unit.module =
      .ok code ∧
      listing = .ofModule code ∧ unit.module.function? unit.module.entry = some entry ∧
      emitted ∈ code.functions ∧
      EmitsFunction unit.module (wrapsEntry ⟨compiler.target.triple, true⟩ unit.module)
        entry emitted ∧
      start ∈ code.functions ∧
      (∀ function ∈ code.functions, function.name = start.name → function = start) ∧
      startingPoint? unit listing = some start.name ∧
      compiler.run unit listing = (do
        let engine ← Engine.prepare compiler.toolchain compiler.target listing
        Job.log .debug "running" [("unit", CompiledUnit.label), ("entry", start.name)]
        engine.run start.name) ∧
      (start = emitted ∧ start.name = unit.module.entry ∨
        start = mainWrapper true entry ∧ start.name = Bytes.ofString "main" ∧
          start.callees = [emitted.name]) := by
  obtain ⟨built, compiled⟩ := CompiledUnit.compile_ok compiled
  obtain ⟨entry, member, found, named⟩ := compiled.exists_entry
  unfold Compiler.listing at rendered
  cases made : LLVM.generate ⟨compiler.target.triple, true⟩ unit.module with
  | error stop =>
      rw [made] at rendered
      cases rendered
  | ok code =>
      rw [made] at rendered
      obtain rfl : Listing.ofModule code = listing := by cases rendered; rfl
      obtain ⟨codes, emits⟩ := generate_emits made
      obtain ⟨emitted, within, isEmitted, isEntry⟩ := exists_emitted emits member named
      have once := (emits.functionNames_nodup compiled.named).1
      have only : ∀ start ∈ code.functions, ∀ function ∈ code.functions,
          function.name = start.name → function = start := fun start there function own same =>
        List.inj_on_of_nodup_map once own there same
      have runs : ∀ name, startingPoint? unit (.ofModule code) = some name →
          compiler.run unit (.ofModule code) = (do
            let engine ← Engine.prepare compiler.toolchain compiler.target (.ofModule code)
            Job.log .debug "running" [("unit", CompiledUnit.label), ("entry", name)]
            engine.run name) := by
        intro name starts
        rw [Compiler.run, starts]
      -- A wrapper is added exactly if the entry function is not called `main`.
      have wraps : unit.module.entry ≠ Bytes.ofString "main" →
          wrapsEntry ⟨compiler.target.triple, true⟩ unit.module = true ∧
            mainWrapper true entry ∈ code.functions := by
        intro other
        have added : wrapsEntry ⟨compiler.target.triple, true⟩ unit.module = true := by
          simp [wrapsEntry, compiled.entry_ne_nil, other]
        refine ⟨added, ?_⟩
        rcases emits.wrapped with ⟨absent, -⟩ | ⟨-, function, isEntry, same⟩
        · exact absurd (added.symm.trans absent) (by decide)
        · obtain rfl := Option.some.inj (found.symm.trans isEntry)
          exact same ▸ List.mem_append_right _ List.mem_cons_self
      have main : (Listing.ofModule code).defines "main" = true := by
        by_cases own : unit.module.entry = Bytes.ofString "main"
        · exact defines_main within (isEntry.trans own)
        · exact defines_main (wraps own).2 rfl
      rcases CompiledUnit.startingPoint?_eq compiled.entry_ne_nil main with starts | ⟨other, starts⟩
      · rw [← isEntry] at starts
        exact ⟨code, entry, emitted, emitted, rfl, rfl, found, within, isEmitted, within,
          only _ within, starts, runs _ starts, .inl ⟨rfl, isEntry⟩⟩
      · obtain ⟨added, there⟩ := wraps other
        refine ⟨code, entry, emitted, mainWrapper true entry, rfl, rfl, found, within,
          isEmitted, there,
          only _ there, starts, runs _ starts, .inr ⟨rfl, rfl, ?_⟩⟩
        rw [isEmitted.name_eq, added]
        rfl

/-- A file whose name is not of ASCII, with a function `main` that is not the entry function. -/
def wrappedFile : SourceFile := ⟨"é.tss", "print(1); func main() int \x7b return 2; \x7d"⟩

/-- Options by which the statements at top level are always the entry function. -/
def wrappedOptions : CompilerOptions := { entryPolicy := "always" }

theorem run_starts_wrapped : ∃ unit listing code entry,
    (CompiledUnit.compile wrappedOptions wrappedFile).outcome.1 = .ok unit ∧
      Compiler.listing ⟨wrappedOptions, {}, true⟩ unit = .ok listing ∧
      startingPoint? unit listing = some (Bytes.ofString "main") ∧
      LLVM.generate ⟨Target.hostTriple, true⟩ unit.module = .ok code ∧
      unit.module.function? (Bytes.ofString "load_é") = some entry ∧
      mainWrapper true entry ∈ code.functions ∧
      (mainWrapper true entry).callees = [Bytes.ofString "load_é"] := by
  obtain ⟨unit, compiled, check⟩ := exists_ok_of_any
    (show ((CompiledUnit.compile wrappedOptions wrappedFile).outcome.1.toOption.any fun unit =>
      (Compiler.listing ⟨wrappedOptions, {}, true⟩ unit).toOption.any fun listing =>
        startingPoint? unit listing == some (Bytes.ofString "main") &&
          unit.module.entry == Bytes.ofString "load_é") = true by
      simp only [wrappedFile, Bytes.ofString_eq]
      decide +kernel)
  obtain ⟨listing, rendered, check⟩ := exists_ok_of_any check
  simp only [Bool.and_eq_true, beq_iff_eq] at check
  obtain ⟨starts, isEntry⟩ := check
  obtain ⟨code, entry, emitted, start, made, -, found, -, isEmitted, there, -, first, -, choice⟩ :=
    run_starts compiled rendered
  have isMain : start.name = Bytes.ofString "main" := Option.some.inj (first.symm.trans starts)
  rcases choice with ⟨-, own⟩ | ⟨rfl, -, calls⟩
  · exact absurd (isMain.symm.trans (own.trans isEntry)) (by decide)
  · refine ⟨unit, listing, code, entry, compiled, rendered, starts, made, isEntry ▸ found,
      there, ?_⟩
    have name : entry.name = Bytes.ofString "load_é" :=
      (by simpa using List.find?_some found : entry.name = unit.module.entry).trans isEntry
    have symbol : (mainWrapper true entry).callees = [Surroundings.symbol true entry.name] := rfl
    rw [symbol, name]
    decide

end Compiler

end ScriptCompiler
