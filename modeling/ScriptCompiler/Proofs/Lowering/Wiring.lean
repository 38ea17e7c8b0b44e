import ScriptCompiler.Proofs.Lowering.BuiltModule
import ScriptCompiler.Proofs.Optimize.ControlFlow
import ScriptCompiler.Proofs.Syntax.Parsed

/-!
# The control-flow graphs of built modules

Lowering puts a jump and the edges that belong to it together, so every function that it makes is
wired (`Draft.Sound.wired_moves`), and passes keep it so.
-/

namespace ScriptCompiler.Lowering

open IR

variable {signature? : Bytes → Option Signature} {tidy : Prop} {before after : Draft}

/-- Edges from the current block to blocks that are there. -/
theorem State.connectAll_linked {state : State} {targets : List BlockName}
    (linked : state.function.Linked) (owned : (state.function.block? state.current.id).isSome)
    (targets_owned : ∀ target ∈ targets, (state.function.block? target.id).isSome) :
    (state.connectAll targets).function.Linked ∧
      ∀ id next, next ∈ (state.connectAll targets).function.successorsOf id ↔
        next ∈ state.function.successorsOf id ∨
          (id = state.current.id ∧ next ∈ targets.map BlockName.id) := by
  induction targets generalizing state with
  | nil => exact ⟨linked, by simp [State.connectAll]⟩
  | cons target rest ih =>
      obtain ⟨first, others⟩ := List.forall_mem_cons.mp targets_owned
      have stays : ∀ id, ((state.connect target).function.block? id).isSome =
          (state.function.block? id).isSome := by
        intro id
        obtain ⟨change, changed⟩ := state.function.block?_addEdge state.current target id
        rw [State.connect, changed, Option.isSome_map]
      obtain ⟨linkedAfter, successors⟩ := @ih (state.connect target) (linked.addEdge owned first)
        ((stays _).trans owned) fun other member => (stays _).trans (others other member)
      refine ⟨linkedAfter, fun id next => ?_⟩
      have here : next ∈ (state.connect target).function.successorsOf id ↔ _ :=
        Function.mem_successorsOf_addEdge owned
      rw [State.connectAll, List.foldl_cons, ← State.connectAll, successors, here]
      simp only [State.connect, List.map_cons, List.mem_cons]
      rw [or_assoc, ← and_or_left]

/-- An instruction with the edges that belong to it keeps the function wired. -/
theorem State.put_wired {state : State} {instr : Instr} {count : Nat} (wired : state.function.Wired)
    (owned : (state.function.block? state.current.id).isSome)
    (targets_owned : ∀ target ∈ instr.targets, (state.function.block? target.id).isSome) :
    (state.put instr count).function.Wired := by
  let emitted : State := { state with
    function := { state.function with nextValue := state.function.nextValue + count } }.emit instr
  have stays : ∀ id, (emitted.function.block? id).isSome = (state.function.block? id).isSome := by
    intro id
    exact (congrArg Option.isSome Function.block?_append).trans Option.isSome_map
  have linked : emitted.function.Linked :=
    (wired.withNextValue (state.function.nextValue + count)).toLinked.append
  have old : ∀ id, emitted.function.successorsOf id = state.function.successorsOf id :=
    fun id => Function.successorsOf_append
  obtain ⟨linkedAfter, successors⟩ := State.connectAll_linked linked ((stays _).trans owned)
    fun target (aims : target ∈ instr.targets) => (stays _).trans (targets_owned target aims)
  refine ⟨linkedAfter, fun id next => ?_⟩
  have edges : next ∈ (state.put instr count).function.successorsOf id ↔
      next ∈ state.function.targetsOf id ∨
        (id = state.current.id ∧ next ∈ instr.targets.map BlockName.id) := by
    rw [← wired.jumps, ← old]
    exact successors id next
  rw [edges, Function.targetsOf, Function.targetsOf]
  by_cases here : id = state.current.id
  · subst here
    rw [State.code_put_self owned, targetIds_append, List.mem_append]
    simp [targetIds]
  · rw [State.code_put_of_ne here]
    simp [here]

/-- **Moves keep a function wired.** -/
theorem Draft.Sound.wired_move (sound : before.Sound signature?)
    (wired : before.state.function.Wired)
    (move : Move signature? tidy before after) : after.state.function.Wired := by
  cases move with
  | note number more function current strings externals =>
      rw [function]
      exact wired.withNextValue number
  | put instr count takes typed demands targets result external =>
      refine State.put_wired wired sound.owned fun target aims => ?_
      exact sound.numbered.block?_isSome.mpr (targets target aims).1
  | block label listed => exact wired.newBlock sound.numbered
  | enter name owned => exact wired

theorem Draft.Sound.wired_moves (sound : before.Sound signature?)
    (wired : before.state.function.Wired) (moves : Moves signature? tidy before after) :
    after.state.function.Wired := by
  induction moves with
  | refl => exact wired
  | tail earlier move ih => exact (sound.moves earlier).wired_move ih move

theorem Lowers.wired {state last : State} {source : Semantics.SourceFunction} {function : Function}
    (lowers : Lowers signature? state source function last) : function.Wired := by
  obtain ⟨name, params, result, after, sound, moves, -, rfl⟩ := lowers.moves
  exact sound.wired_moves (Function.ofSignature_wired name params result) moves

variable {options : EntryOptions} {program : Program}

theorem Translates.wired {stem : Bytes} {module : Module} {start last : State}
    (translates : Translates options stem program module signature? start last) :
    ∀ function ∈ module.functions, function.Wired := by
  intro function member
  obtain ⟨source, -, earlier, later, lowers, -⟩ := translates.lowers.origin member
  exact lowers.wired

/-- **The control-flow graphs of a well-formed built module are consistent, and stay so whatever
passes are run on its functions.**  Behind dead code elimination a function has exactly those of its
blocks that can be reached from the entry by way of terminators. -/
theorem build_controlFlow {origin : Origin} {tokens : List Token} {file : SourceFile}
    {built : Built} (parsed : Program.ofTokens origin tokens = .ok program)
    (run : build options file program = .ok built) (verified : built.module.violations = [])
    {after : Module} (passes : built.module.PassSteps after) :
    after.violations = [] ∧ ∀ function ∈ after.functions, function.Consistent ∧
      ∀ result, Pass.deadCode.run function = .ok result →
        (∀ name, name ∈ result.function.blocks.map Block.name ↔
          name ∈ function.blocks.map Block.name ∧ function.Reaches name.id) ∧
        ∀ id, (result.function.block? id).isSome ↔ result.function.Reaches id := by
  obtain ⟨signature?, opened, last, translates⟩ :=
    build_translates (Program.written_of_ofTokens parsed) run
  have wired : after.Wired := (Module.Wired.mk verified translates.wired).steps passes
  refine ⟨wired.wellFormed, fun function member => ?_⟩
  have wellFormed := wired.function_wellFormed member
  refine ⟨(wired.functions function member).consistent wellFormed, ?_⟩
  intro result ran
  obtain rfl := Except.ok.inj ((Pass.run_deadCode function).symm.trans ran)
  obtain ⟨pruned, reached⟩ := (wired.functions function member).eliminateDeadCode wellFormed
  refine ⟨fun name => ⟨fun left => ⟨pruned.names_subset left, ?_⟩, fun kept => ?_⟩,
    fun id => ⟨fun there => ?_, pruned.wired.isSome_of_reaches⟩⟩
  · obtain ⟨block, within, rfl⟩ := List.mem_map.mp left
    exact reached block within
  · exact pruned.kept name kept.1 kept.2
  · obtain ⟨block, found⟩ := Option.isSome_iff_exists.mp there
    refine (pruned.reaches_iff id).mpr ?_
    rw [← Function.id_of_block? found]
    exact reached block (Function.mem_of_block? found)

/-- Tokens that are read and built, with a test of what comes out. -/
theorem exists_built (origin : Origin) (tokens : List Token) (options : EntryOptions)
    (file : SourceFile) (test : Built → Bool)
    (check : ((Program.ofTokens origin tokens).toOption.bind fun program =>
      (build options file program).toOption).any test = true) :
    ∃ program built, Program.ofTokens origin tokens = .ok program ∧
      build options file program = .ok built ∧ test built = true := by
  cases parsed : Program.ofTokens origin tokens with
  | error reason => simp [parsed, Except.toOption] at check
  | ok program =>
      cases run : build options file program with
      | error reason => simp [parsed, run, Except.toOption] at check
      | ok built =>
          exact ⟨program, built, rfl, run, by simpa [parsed, run, Except.toOption] using check⟩

/-- A loop that is left in the middle: `while (true) { if (1 < 2) { break; } }`. -/
def loopTokens : List Token :=
  [⟨.whileKeyword, "while", {}⟩, ⟨.leftParen, "(", {}⟩, ⟨.trueKeyword, "true", {}⟩,
    ⟨.rightParen, ")", {}⟩, ⟨.leftBrace, "\x7b", {}⟩, ⟨.ifKeyword, "if", {}⟩, ⟨.leftParen, "(", {}⟩,
    ⟨.int, "1", {}⟩, ⟨.less, "<", {}⟩, ⟨.int, "2", {}⟩, ⟨.rightParen, ")", {}⟩,
    ⟨.leftBrace, "\x7b", {}⟩, ⟨.breakKeyword, "break", {}⟩, ⟨.semicolon, ";", {}⟩,
    ⟨.rightBrace, "\x7d", {}⟩, ⟨.rightBrace, "\x7d", {}⟩]

theorem build_controlFlow_loop : ∃ program built function folded pruned,
    Program.ofTokens ⟨"loop", "<main>"⟩ loopTokens = .ok program ∧
      build {} ⟨"loop.tss", []⟩ program = .ok built ∧ built.module.violations = [] ∧
      built.module.functions = [function] ∧ (Pass.folding true).run function = .ok folded ∧
      Pass.deadCode.run folded.function = .ok pruned ∧
      pruned.function.blocks.length < function.blocks.length ∧ pruned.function.Consistent := by
  obtain ⟨program, built, parsed, run, check⟩ := exists_built ⟨"loop", "<main>"⟩
    loopTokens {} ⟨"loop.tss", []⟩
    (fun built => built.module.violations.isEmpty && built.module.functions.length == 1 &&
      built.module.functions.all fun function =>
        function.foldConstants.1.eliminateDeadCode.1.blocks.length < function.blocks.length)
    (by decide +kernel)
  simp only [Bool.and_eq_true, List.isEmpty_iff, beq_iff_eq, List.all_eq_true, decide_eq_true_eq]
    at check
  obtain ⟨⟨verified, single⟩, shorter⟩ := check
  obtain ⟨function, functions⟩ := List.length_eq_one_iff.mp single
  let folded : Module := { built.module with functions := [function.foldConstants.1] }
  have first : built.module.PassStep folded :=
    @Module.PassStep.run _ [] [] _ _ _ functions (Pass.run_folding true function)
  have second : folded.PassStep { folded with
      functions := [function.foldConstants.1.eliminateDeadCode.1] } :=
    @Module.PassStep.run folded [] [] _ _ _ rfl (Pass.run_deadCode function.foldConstants.1)
  have consistent := (build_controlFlow parsed run verified ((Relation.ReflTransGen.single
    first).tail second)).2 _ (List.mem_singleton_self _)
  exact ⟨program, built, function, _, _, parsed, run, verified, functions, Pass.run_folding _ _,
    Pass.run_deadCode _, shorter function (by simp [functions]), consistent.1⟩

end ScriptCompiler.Lowering
