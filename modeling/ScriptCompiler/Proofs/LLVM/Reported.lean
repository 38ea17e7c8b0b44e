import Mathlib.Algebra.Order.BigOperators.Group.List
import Mathlib.Algebra.Order.Group.Nat
import ScriptCompiler.Proofs.LLVM.Lines
import ScriptCompiler.Proofs.LLVM.Names

/-!
# The symbols of generated code

What is looked for in the listing of a generated module are the functions that it defines.  They are
found under their names as long as these are written without escapes and hold no parenthesis, and
under other names otherwise (`generate_symbols_iff`).
-/

namespace ScriptCompiler

/-! ### Modules that can be written -/

/-- Every block of a function ends in a terminator, and its jumps lead to blocks of the function. -/
def IR.Function.Joined (function : IR.Function) : Prop :=
  ∀ block ∈ function.blocks, block.isTerminated = true ∧
    ∀ instr ∈ block.instrs, ∀ target ∈ instr.targets, (function.block? target.id).isSome

theorem IR.Function.joined_of_violations {function : IR.Function} {known : IR.Callee → Bool}
    (wellFormed : function.violations known = []) : function.Joined := by
  intro block member
  have formed := (violations_eq_nil_iff.mp wellFormed).1 block member
  exact ⟨formed.terminated, fun instr within target aims => formed.owned instr within target aims⟩

theorem Lowering.Lowers.joined {signature? : Bytes → Option Signature} {state last : State}
    {source : Semantics.SourceFunction} {function : IR.Function}
    (lowers : Lowers signature? state source function last) : function.Joined := by
  obtain ⟨_, _, _, _, made, rfl, rfl, -⟩ := lowers.makes
  have sound := made.sound_after
  intro block member
  have there := IR.Function.block?_of_mem sound.numbered.nodup member
  refine ⟨made.finished.terminated made.sound member, fun instr within target aims => ?_⟩
  exact sound.numbered.block?_isSome.mpr (sound.targets _ _ there instr within target aims).1

namespace LLVM

open IR Lowering

section Emitted

variable {env : Surroundings} {locals last : Locals} {insts : List Inst}

/-- A terminator leads where its instruction does. -/
theorem Emits.terminator_eq {instr : Instr} {terminator : Option Terminator}
    (emits : Emits env locals instr insts terminator last) :
    terminator.isSome = instr.isTerminator ∧
      ∀ ends ∈ terminator, ends.targets = instr.targets.map env.label := by
  cases emits with
  | jump | branch | leave | ret => exact ⟨rfl, by rintro _ ⟨⟩; rfl⟩
  | _ => exact ⟨rfl, by simp⟩

/-- The last terminator counts, and it leads where an instruction does. -/
theorem EmitsAll.terminator_eq {earlier terminator : Option Terminator} {instrs : List Instr}
    (emits : EmitsAll env locals earlier instrs insts terminator last) :
    (earlier.isSome = true ∨ (∃ instr ∈ instrs, instr.isTerminator = true) →
      terminator.isSome = true) ∧
      ∀ ends ∈ terminator, earlier = some ends ∨
        ∃ instr ∈ instrs, ends.targets = instr.targets.map env.label := by
  induction emits with
  | nil => exact ⟨by simp, fun ends isEnd => .inl isEnd⟩
  | @cons _ _ _ earlier own final instr instrs _ _ first _ ih =>
      obtain ⟨isTerminator, leads⟩ := first.terminator_eq
      obtain ⟨some_, origin⟩ := ih
      constructor
      · intro known
        refine some_ ?_
        rw [Option.isSome_or, isTerminator, Bool.or_eq_true]
        rcases known with before | ⟨other, member, ends⟩
        · exact .inl (.inr before)
        · rcases List.mem_cons.mp member with rfl | later
          · exact .inl (.inl ends)
          · exact .inr ⟨other, later, ends⟩
      · intro ends isEnd
        rcases origin ends isEnd with before | ⟨other, member, same⟩
        · rcases Option.or_eq_some_iff.mp before with here | ⟨-, before⟩
          · exact .inr ⟨instr, List.mem_cons_self, leads ends here⟩
          · exact .inl before
        · exact .inr ⟨other, List.mem_cons_of_mem _ member, same⟩

/-- A joined function becomes blocks that can be written. -/
theorem EmitsBlocks.defect_eq_none {start : List Inst} {sources : List IR.Block}
    {blocks : List Block} (emits : EmitsBlocks env locals start sources blocks)
    (joined : ∀ block ∈ sources, block.isTerminated = true ∧
      ∀ instr ∈ block.instrs, ∀ target ∈ instr.targets, (env.function.block? target.id).isSome) :
    ∀ block ∈ blocks, block.defect? = none := by
  induction emits with
  | nil => simp
  | @cons _ _ _ _ source _ terminator _ first _ ih =>
      rw [List.forall_mem_cons] at joined ⊢
      obtain ⟨⟨terminated, targets⟩, others⟩ := joined
      refine ⟨?_, ih others⟩
      obtain ⟨some_, origin⟩ := first.terminator_eq
      obtain ⟨body, final, split, ends⟩ := Block.isTerminated_iff.mp terminated
      obtain ⟨written, isWritten⟩ :=
        Option.isSome_iff_exists.mp (some_ (.inr ⟨final, by simp [split], ends⟩))
      obtain rfl := isWritten
      obtain ⟨⟨⟩⟩ | ⟨instr, member, same⟩ := origin written rfl
      have inside : (written.targets.any Option.isNone) = false := by
        rw [same, List.any_eq_false]
        intro label isLabel
        obtain ⟨target, aims, rfl⟩ := List.mem_map.mp isLabel
        have known := targets instr member target aims
        rw [Surroundings.label, Option.isNone_map]
        simpa using Option.isSome_iff_ne_none.mp known
      simp [Block.defect?, inside]

theorem EmitsModule.defect_eq_none {options : Options} {module : IR.Module} {generated : Module}
    {codes : List Function} (emits : EmitsModule options module generated codes)
    (joined : ∀ function ∈ module.functions, function.Joined) : generated.defect? = none := by
  have own : ∀ code ∈ codes, ∀ block ∈ code.blocks, block.defect? = none := by
    intro code member
    obtain ⟨source, there, emitted⟩ := exists_of_forall₂ emits.functions member
    exact emitted.blocks.defect_eq_none (joined source there)
  rw [Module.defect?, List.findSome?_eq_none_iff]
  intro block member
  obtain ⟨code, isCode, within⟩ := List.mem_flatMap.mp member
  rcases emits.wrapped with ⟨-, same⟩ | ⟨-, entry, -, same⟩
  · exact own code (same ▸ isCode) block within
  · rw [same, List.mem_append, List.mem_singleton] at isCode
    rcases isCode with isCode | rfl
    · exact own code isCode block within
    · obtain rfl := List.mem_singleton.mp within
      rfl

end Emitted

/-! ### Names under which functions are found -/

/-- Escapes make a name longer. -/
theorem length_quotedContent (name : Bytes) : name.length ≤ (quotedContent name).length ∧
    ((∃ byte ∈ name, isPlainByte byte = false) →
      name.length < (quotedContent name).length ∧ 0x5C ∈ quotedContent name) := by
  induction name with
  | nil => simp [quotedContent]
  | cons byte rest ih =>
      obtain ⟨least, longer⟩ := ih
      rw [quotedContent] at least longer
      rw [quotedContent, List.flatMap_cons, List.length_append, List.length_cons]
      cases plain : isPlainByte byte with
      | true =>
          rw [if_pos rfl, List.length_singleton]
          refine ⟨by omega, ?_⟩
          rintro ⟨other, member, escaped⟩
          rcases List.mem_cons.mp member with rfl | later
          · rw [plain] at escaped
            cases escaped
          · obtain ⟨less, mark⟩ := longer ⟨other, later, escaped⟩
            exact ⟨by omega, List.mem_append_right _ mark⟩
      | false =>
          have size : (escapedByte byte).length = 3 := rfl
          have mark : 0x5C ∈ escapedByte byte := List.mem_cons_self
          rw [if_neg (by decide), size]
          exact ⟨by omega, fun _ => ⟨by omega, List.mem_append_left _ mark⟩⟩

/-- Functions are found under exactly their names if these have no escapes and no parenthesis. -/
theorem reported_iff (names : List Bytes) :
    (∀ symbol, (∃ name ∈ names, symbol = reportedName name) ↔ symbol ∈ names) ↔
      ∀ name ∈ names, ∀ byte ∈ name, isPlainByte byte = true ∧ byte ≠ 0x28 := by
  constructor
  · intro same
    -- What is found holds no parenthesis, and so no name does.
    have closed : ∀ name ∈ names, 0x28 ∉ name := by
      intro name member
      obtain ⟨source, -, rfl⟩ := (same name).mpr member
      exact fun broken => by simpa using List.mem_takeWhile_imp broken
    have whole : ∀ name ∈ names, reportedName name = quotedContent name := by
      intro name member
      refine List.takeWhile_eq_self_iff.mpr fun byte within => ?_
      obtain ⟨source, there, spelt⟩ := List.mem_flatMap.mp within
      refine bne_iff_ne.mpr fun broken => ?_
      split at spelt
      · rw [List.mem_singleton.mp spelt] at broken
        exact closed name member (broken ▸ there)
      · obtain ⟨split, plain⟩ := isPlainByte_escapedByte source
        rw [split, List.mem_cons, broken] at spelt
        exact spelt.elim (by decide) fun digit => (plain _ digit).2 rfl
    -- A name with an escape is found under a longer one with an escape, and there would be no end.
    have endless : ∀ size, (∃ name ∈ names, ∃ byte ∈ name, isPlainByte byte = false) →
        ∃ name ∈ names, (∃ byte ∈ name, isPlainByte byte = false) ∧ size ≤ name.length := by
      intro size some_
      induction size with
      | zero =>
          obtain ⟨name, member, escaped⟩ := some_
          exact ⟨name, member, escaped, Nat.zero_le _⟩
      | succ size ih =>
          obtain ⟨name, member, escaped, long⟩ := ih
          obtain ⟨longer, mark⟩ := (length_quotedContent name).2 escaped
          refine ⟨quotedContent name, ?_, ⟨_, mark, by decide⟩, by omega⟩
          exact (same _).mp ⟨name, member, (whole name member).symm⟩
    intro name member byte within
    refine ⟨?_, fun broken => closed name member (broken ▸ within)⟩
    by_contra escaped
    obtain ⟨other, there, -, long⟩ := endless ((names.map List.length).sum + 1)
      ⟨name, member, byte, within, by simpa using escaped⟩
    have bound := List.le_sum_of_mem (List.mem_map_of_mem (f := List.length) there)
    omega
  · intro plain symbol
    have kept : ∀ name ∈ names, reportedName name = name := by
      intro name member
      rw [reportedName, quotedContent_of_plain fun byte within => (plain name member byte within).1]
      exact List.takeWhile_eq_self_iff.mpr fun byte within => by
        simpa using (plain name member byte within).2
    constructor
    · rintro ⟨name, member, rfl⟩
      rwa [kept name member]
    · exact fun member => ⟨symbol, member, (kept symbol member).symm⟩

/-! ### Generated modules -/

/-- What a generated module defines: the functions of the module, with `main` out of the way of the
wrapper, and then the wrapper. -/
theorem EmitsModule.symbols_eq {options : Options} {module : IR.Module} {generated : Module}
    {codes : List Function} (emits : EmitsModule options module generated codes) :
    generated.symbols =
      (module.functions.map fun function =>
        Surroundings.symbol (wrapsEntry options module) function.name) ++
        if wrapsEntry options module then [Bytes.ofString "main"] else [] := by
  rw [← emits.names_eq, Module.symbols]
  rcases emits.wrapped with ⟨wraps, same⟩ | ⟨wraps, entry, -, same⟩
  · rw [same, wraps, if_neg (by decide), List.append_nil]
  · rw [same, wraps, if_pos rfl, List.map_append]
    rfl

/-- **What is found in the listing of a generated module.**  The module can be written, and it
defines the functions of the program and the wrapper.  In the listing exactly these are found, each
under the name that is read off its first line; so they are found under exactly their names if no
name needs an escape and none holds a parenthesis, and otherwise they are not. -/
theorem generate_symbols_iff {file : SourceFile} {tokens : List Token} {program : Program}
    {entry : EntryOptions} {built : Built} (parsed : file.parse = .ok (tokens, program))
    (run : build entry file program = .ok built) (optimizer : Optimizer) (options : Options) :
    ∀ module, module = built.module ∨
        built.module.violations = [] ∧ module = (optimizer.optimize built.module).1 →
      ∀ generated, generate options module = .ok generated →
        generated.defect? = none ∧
        generated.symbols =
          (module.functions.map fun function =>
            Surroundings.symbol (wrapsEntry options module) function.name) ++
            (if wrapsEntry options module then [Bytes.ofString "main"] else []) ∧
        (∀ symbol, symbol ∈ (Listing.ofModule generated).symbols ↔
          ∃ name ∈ generated.symbols, symbol = reportedName name) ∧
        ((∀ symbol, symbol ∈ (Listing.ofModule generated).symbols ↔ symbol ∈ generated.symbols) ↔
          ∀ name ∈ generated.symbols, ∀ byte ∈ name, isPlainByte byte = true ∧ byte ≠ 0x28) := by
  obtain ⟨-, read⟩ := SourceFile.ofTokens_of_parse parsed
  obtain ⟨signature?, opened, last, translates⟩ :=
    build_translates (Program.written_of_ofTokens read) run
  intro module origin generated made
  have joined : ∀ function ∈ module.functions, function.Joined := by
    intro function member
    rcases origin with rfl | ⟨verified, rfl⟩
    · obtain ⟨_, -, _, _, lowers, -⟩ := translates.lowers.origin member
      exact lowers.joined
    · have orderly := optimizer.optimize_orderly (translates.orderly verified)
      exact IR.Function.joined_of_violations (orderly function member).wellFormed
  obtain ⟨codes, emits⟩ := generate_emits made
  have found : ∀ symbol, symbol ∈ (Listing.ofModule generated).symbols ↔
      ∃ name ∈ generated.symbols, symbol = reportedName name := generated.mem_definedNames_iff
  refine ⟨emits.defect_eq_none joined, emits.symbols_eq, found, ?_⟩
  rw [← reported_iff]
  exact forall_congr' fun symbol => by rw [found symbol]

/-- A file with a function whose name needs escapes. -/
def accentFile : SourceFile := ⟨"test.tss", "func é() \x7b \x7d"⟩

theorem generate_symbols_iff_accent : ∃ tokens program built generated,
    accentFile.parse = .ok (tokens, program) ∧ build {} accentFile program = .ok built ∧
      generate {} built.module = .ok generated ∧
      (Bytes.ofString "é" ∈ generated.symbols ∧
        Bytes.ofString "\\C3\\A9" ∈ (Listing.ofModule generated).symbols) ∧
      ¬ ∀ symbol, symbol ∈ (Listing.ofModule generated).symbols ↔ symbol ∈ generated.symbols := by
  obtain ⟨tokens, program, built, parsed, run, check⟩ := exists_compiled accentFile {}
    (fun built => (generate {} built.module).toOption.isSome &&
      (!wrapsEntry {} built.module) &&
      built.module.functions.any fun function => function.name == Bytes.ofString "é")
    (by decide +kernel)
  simp only [Bool.and_eq_true, Bool.not_eq_true', List.any_eq_true, beq_iff_eq] at check
  obtain ⟨⟨made, unwrapped⟩, function, member, named⟩ := check
  cases generation : generate {} built.module with
  | error stop => simp [generation, Except.toOption] at made
  | ok generated =>
      obtain ⟨-, symbols, found, exactly⟩ :=
        generate_symbols_iff parsed run (Optimizer.ofLevel 0) {} _ (.inl rfl) generated generation
      have defined : Bytes.ofString "é" ∈ generated.symbols := by
        rw [symbols, unwrapped, ← named]
        exact List.mem_append_left _ (List.mem_map_of_mem member)
      refine ⟨tokens, program, built, generated, parsed, run, generation,
        ⟨defined, (found _).mpr ⟨_, defined, by decide +kernel⟩⟩, fun same => ?_⟩
      have plain := exactly.mp same _ defined
      exact absurd plain (by decide +kernel)

end LLVM

end ScriptCompiler
