import ScriptCompiler.Proofs.Lowering.Wiring
import ScriptCompiler.Proofs.Optimize.Dominance

/-!
# Definitions dominate uses in built modules

A new block starts with what is supplied at the end of the block that lowering is in when it makes
it.  That block is an older one, so whatever the certificate promises to a block has been supplied
by blocks before it (`Draft.Sound.backed_moves`): the order of blocks is an order of definitions.
-/

namespace ScriptCompiler.Lowering

open IR

variable {signature? : Bytes → Option Signature} {tidy : Prop} {before after : Draft}

/-- What the certificate promises to a block is supplied by blocks before it. -/
def Draft.Backed (draft : Draft) : Prop :=
  ∀ id, ∀ supply ∈ draft.known id, ∃ other < id, ∃ instr ∈ draft.state.function.code other,
    supply ∈ instr.supplies

/-- Moves keep the promises backed. -/
theorem Draft.Sound.backed_move (sound : before.Sound signature?) (backed : before.Backed)
    (move : Move signature? tidy before after) : after.Backed := by
  -- code only grows, so what is backed stays backed
  have stays : ∀ id, ∀ supply ∈ before.known id, ∃ other < id,
      ∃ instr ∈ after.state.function.code other, supply ∈ instr.supplies := by
    intro id supply promised
    obtain ⟨other, less, instr, within, given⟩ := backed id supply promised
    exact ⟨other, less, instr, (move.grows.code_extends other).subset within, given⟩
  cases move with
  | note number more function current strings externals => exact stays
  | put instr count takes typed demands targets result external => exact stays
  | enter name owned => exact stays
  | block label listed =>
      intro id supply promised
      by_cases new : id = before.state.function.nextBlock
      · subst new
        simp only [Function.update_self] at promised
        rcases promised with earlier | ⟨instr, within, given⟩
        · obtain ⟨other, less, backing⟩ := stays _ supply earlier
          exact ⟨other, Nat.lt_trans less sound.current_lt, backing⟩
        · refine ⟨before.state.current.id, sound.current_lt, instr, ?_, given⟩
          simp only [State.addBlock, Function.code_newBlock]
          exact within
      · simp only [Function.update_of_ne new] at promised
        exact stays id supply promised

theorem Draft.Sound.backed_moves (sound : before.Sound signature?) (backed : before.Backed)
    (moves : Moves signature? tidy before after) : after.Backed := by
  induction moves with
  | refl => exact backed
  | tail earlier move ih => exact (sound.moves earlier).backed_move ih move

theorem instrs_eq_range {function : Function} (numbered : function.Numbered) :
    function.instrs = (List.range function.nextBlock).flatMap function.code := by
  rw [← numbered, List.flatMap_map, Function.instrs]
  refine List.flatMap_congr fun block member => ?_
  exact (Function.code_eq (Function.block?_of_mem numbered.nodup member)).symm

/-- In the order of blocks everything that is asked for is supplied first. -/
theorem Draft.Sound.suppliedFirst (sound : before.Sound signature?) (backed : before.Backed) :
    SuppliedFirst before.state.function.instrs := by
  rw [instrs_eq_range sound.numbered]
  generalize before.state.function.nextBlock = count
  induction count with
  | zero => exact fun earlier use later split => by simp at split
  | succ count ih =>
      rw [List.range_succ, List.flatMap_append, List.flatMap_singleton]
      refine ih.append (fun supply promised => ?_) (sound.covered count)
      obtain ⟨other, less, instr, within, given⟩ := backed count supply promised
      exact ⟨instr, List.mem_flatMap.mpr ⟨other, List.mem_range.mpr less, within⟩, given⟩

theorem Lowers.grounded {state last : State} {source : Semantics.SourceFunction}
    {function : Function}
    (lowers : Lowers signature? state source function last) : function.Grounded := by
  have sound := lowers.sound
  obtain ⟨name, params, result, after, start, moves, -, rfl⟩ := lowers.moves
  have backed : after.Backed := start.backed_moves (fun _ _ promised => promised.elim) moves
  have draft := start.moves moves
  exact sound.grounded draft.start draft.covered (draft.suppliedFirst backed)

variable {options : EntryOptions} {program : Program}

theorem Translates.orderly {stem : Bytes} {module : Module} {start last : State}
    (translates : Translates options stem program module signature? start last)
    (verified : module.violations = []) :
    ∀ function ∈ module.functions, function.Orderly module.knows := by
  intro function member
  obtain ⟨source, -, earlier, later, lowers, -⟩ := translates.lowers.origin member
  exact ⟨lowers.wired, (Module.violations_eq_nil_iff.mp verified).2 function member,
    lowers.grounded⟩

/-- **In a well-formed built module, optimized or not, definitions dominate uses and no slot is
loaded before it is filled.** -/
theorem build_grounded {origin : Origin} {tokens : List Token} {file : SourceFile} {built : Built}
    (parsed : Program.ofTokens origin tokens = .ok program)
    (run : build options file program = .ok built) (verified : built.module.violations = [])
    (optimizer : Optimizer) :
    ∀ module ∈ [built.module, (optimizer.optimize built.module).1],
      ∀ function ∈ module.functions, function.Grounded := by
  obtain ⟨signature?, opened, last, translates⟩ :=
    build_translates (Program.written_of_ofTokens parsed) run
  have orderly := translates.orderly verified
  intro module listed function member
  simp only [List.mem_cons, List.not_mem_nil, or_false] at listed
  rcases listed with rfl | rfl
  · exact (orderly function member).grounded
  · exact (Optimizer.optimize_orderly orderly optimizer function member).grounded

/-- A variable that is tested twice: `var x = 1; if (x < 2 && 0 < x) { x = 2; } print(x);`. -/
def testTokens : List Token :=
  [⟨.varKeyword, "var", {}⟩, ⟨.identifier, "x", {}⟩, ⟨.assign, "=", {}⟩, ⟨.int, "1", {}⟩,
    ⟨.semicolon, ";", {}⟩, ⟨.ifKeyword, "if", {}⟩, ⟨.leftParen, "(", {}⟩, ⟨.identifier, "x", {}⟩,
    ⟨.less, "<", {}⟩, ⟨.int, "2", {}⟩, ⟨.bothAnd, "&&", {}⟩, ⟨.int, "0", {}⟩, ⟨.less, "<", {}⟩,
    ⟨.identifier, "x", {}⟩, ⟨.rightParen, ")", {}⟩, ⟨.leftBrace, "\x7b", {}⟩,
    ⟨.identifier, "x", {}⟩, ⟨.assign, "=", {}⟩, ⟨.int, "2", {}⟩, ⟨.semicolon, ";", {}⟩,
    ⟨.rightBrace, "\x7d", {}⟩, ⟨.identifier, "print", {}⟩, ⟨.leftParen, "(", {}⟩,
    ⟨.identifier, "x", {}⟩, ⟨.rightParen, ")", {}⟩, ⟨.semicolon, ";", {}⟩]

theorem build_grounded_test : ∃ program built,
    Program.ofTokens ⟨"test", "<main>"⟩ testTokens = .ok program ∧
      build {} ⟨"test.tss", []⟩ program = .ok built ∧ built.module.violations = [] ∧
      (built.module.functions.map fun function => function.blocks.length) = [5] ∧
      ∀ function ∈ ((Optimizer.ofLevel 2).optimize built.module).1.functions,
        function.Grounded := by
  obtain ⟨program, built, parsed, run, check⟩ := exists_built ⟨"test", "<main>"⟩ testTokens {}
    ⟨"test.tss", []⟩
    (fun built => built.module.violations.isEmpty &&
      (built.module.functions.map fun function => function.blocks.length) == [5])
    (by decide +kernel)
  rw [Bool.and_eq_true, List.isEmpty_iff, beq_iff_eq] at check
  exact ⟨program, built, parsed, run, check.1, check.2,
    build_grounded parsed run check.1 (Optimizer.ofLevel 2) _
      (List.mem_cons_of_mem _ (List.mem_singleton_self _))⟩

end ScriptCompiler.Lowering
