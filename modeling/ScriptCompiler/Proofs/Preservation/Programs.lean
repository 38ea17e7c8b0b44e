import ScriptCompiler.Compilation.Unit
import ScriptCompiler.Proofs.Optimize.Meaning
import ScriptCompiler.Proofs.Preservation.Functions
import ScriptCompiler.Proofs.Statics.Programs
import ScriptCompiler.Proofs.Syntax.Parsed

/-!
# Lowering preserves meaning

Calls of the functions of a module are compared with calls of the functions of its source by
induction on the depth of calls.  At each depth the functions that are called already do what their
sources do, so that a function does what its source does.  So a function of a built module ends with
an output and a value, or with a trap, exactly if its source does (`build_ends_iff`).
-/

namespace ScriptCompiler.Lowering

open IR Semantics Bounded Statics

variable {Double : Type} {machine : Machine Double} {options : EntryOptions} {stem : Bytes}
  {program : Program} {signature? : Bytes → Option Signature} {state start last : State}
  {module : Module} {name : Bytes} {function : Function} {arguments : List (Datum Double)}

/-- The functions of a well-formed program have well-formed statements. -/
theorem admitted_of_wellFormed (wellFormed : WellFormed options stem program)
    {source : SourceFunction}
    (member : source ∈ sourceFunctions options stem program) : source.Admitted := by
  have isEntry_iff : ∀ declaration : FunctionDecl,
      isEntry options declaration = true ↔ IsEntry options declaration := by
    intro declaration
    simp [isEntry, IsEntry]
  have names : ∀ declaration : FunctionDecl, (paramScope declaration).names =
      declaration.params.map fun param => param.name.name := by
    intro declaration
    simp [paramScope, Statics.Scope.names]
  have own : ∀ declaration ∈ program.functions,
      (sourceFunction (if isEntry options declaration then some program.statements else none)
        declaration).Admitted := by
    intro declaration within
    by_cases entry : isEntry options declaration = true
    · rw [if_pos entry]
      obtain ⟨top, admitsTop, -, body, admits⟩ :=
        wellFormed.entry declaration within ((isEntry_iff declaration).mp entry)
      exact ⟨⟨_, _, _, admitsTop⟩, _, _, _, _, names declaration, admits⟩
    · rw [if_neg entry]
      obtain ⟨-, body, admits⟩ :=
        wellFormed.bodies declaration within fun isEntry =>
          entry ((isEntry_iff declaration).mpr isEntry)
      exact ⟨⟨.void, [], [], .nil⟩, _, _, _, _, names declaration, admits⟩
  dsimp only [sourceFunctions] at member
  split at member
  · obtain ⟨declaration, within, rfl⟩ := List.mem_map.mp member
    exact own declaration within
  · rename_i none
    rcases List.mem_cons.mp member with rfl | later
    · obtain ⟨-, top, admits⟩ := wellFormed.topLevel fun declaration within entry =>
        none (List.any_eq_true.mpr ⟨declaration, within, (isEntry_iff declaration).mpr entry⟩)
      exact ⟨⟨_, _, _, admits⟩, .void, [], [], [], rfl, .nil⟩
    · obtain ⟨declaration, within, rfl⟩ := List.mem_map.mp later
      exact own declaration within

/-- A function that is found is lowered from the source that is found. -/
theorem LowersAll.find? {sources : List SourceFunction} {functions : List Function}
    (lowers : LowersAll signature? state sources functions last)
    (found : functions.find? (fun function => function.name == name) = some function) :
    ∃ source before after, sources.find? (fun source => source.name == name) = some source ∧
      Lowers signature? before source function after ∧ after.strings <+: last.strings := by
  induction lowers with
  | nil => cases found
  | @cons state middle last source sources function' functions first rest ih =>
      rw [List.find?_cons, first.name_eq] at found
      rw [List.find?_cons]
      cases named : source.name == name with
      | true =>
          rw [named] at found
          cases found
          exact ⟨source, state, middle, rfl, first, rest.strings_extend⟩
      | false =>
          rw [named] at found
          exact ih found

section Calls

variable (translates : Translates options stem program module signature? start last)
  (wellFormed : WellFormed options stem program)
include translates

/-- The name of a function that can be called belongs to a function of the source. -/
theorem Translates.any_source {signature : Signature} (known : signature? name = some signature) :
    ((sourceFunctions options stem program).any fun source => source.name == name) = true := by
  obtain ⟨function, found, -⟩ :=
    Option.map_eq_some_iff.mp (translates.callable name signature known)
  obtain ⟨source, _, _, isSource, -⟩ := translates.lowers.find? found
  rw [List.any_eq_true, ← List.find?_isSome, isSource]
  rfl

/-- The output function is none of the source, unless it can be called. -/
theorem Translates.output_undeclared (unknown : signature? outputName = none) :
    ((sourceFunctions options stem program).any fun source => source.name == outputName) =
      false := by
  rw [List.any_eq_false]
  intro source member named
  have isOutput : source.name ∈ module.functions.map Function.name := by
    rw [translates.lowers.names_eq]
    exact List.mem_map_of_mem member
  obtain ⟨function, within, same⟩ := List.mem_map.mp isOutput
  have spelled : function.name = outputName := same.trans (beq_iff_eq.mp named)
  rcases translates.declared function within with known | synthesized
  · rw [spelled, unknown] at known
    cases known
  · have differ : outputName ≠ synthesizedEntry stem := by
      intro equal
      have output : (Bytes.ofString "print").head? = some 0x70 := by decide
      have load : (Bytes.ofString "load_").head? = some 0x6C := by decide
      have first := congrArg List.head? equal
      simp [outputName, synthesizedEntry, output, load] at first
    exact differ (spelled.symm.trans synthesized)

include wellFormed

/-- **A call of a function of the module does what the call of its source does, at every depth.** -/
theorem Translates.call_meets (bound : Nat) (found : module.function? name = some function)
    (typed : arguments.map Datum.type = function.params.map Place.type) (trace : Trace Double) :
    Meets bound bound
      (sourceCall machine (sourceFunctions options stem program) bound name arguments trace)
      (fun depth _ => module.call machine depth name arguments trace)
      fun result onward => onward = const (.done result) ∧ Returned function.result result.1 := by
  induction bound generalizing name function arguments trace with
  | zero =>
      intro depth shallow _ _
      rw [Nat.le_zero.mp shallow]
      rfl
  | succ bound ih =>
      obtain ⟨source, before, after, isSource, lowers, strings⟩ := translates.lowers.find? found
      let sim : Simulation Double :=
        { machine, module, final := after, signature?
          declared := fun name => (sourceFunctions options stem program).any fun source =>
            source.name == name
          call := sourceCall machine (sourceFunctions options stem program) bound
          depth := bound
          rounds := bound
          numbered := lowers.numbered
          strings := translates.strings_eq ▸ strings
          calls := fun name signature known => by
            refine ⟨translates.any_source known, fun data types trace => ?_⟩
            obtain ⟨callee, found, same⟩ :=
              Option.map_eq_some_iff.mp (translates.callable name signature known)
            subst same
            exact ih found types trace
          undeclared := translates.output_undeclared }
      have admitted := admitted_of_wellFormed wellFormed (List.mem_of_find?_eq_some isSource)
      have suits : Lowers sim.signature? before source function sim.final := lowers
      have called :
        sourceCall machine (sourceFunctions options stem program) (bound + 1) name arguments
          trace = source.eval sim.machine sim.declared sim.call sim.rounds arguments trace := by
        rw [sourceCall, isSource]
        rfl
      have grows : (sim.entering Function.entry { arguments } trace).Grows := fun deeper more =>
        sim.final.function.enter_below (module.call_below deeper) more _ _ _
      rw [called, suits.function_eq]
      refine (suits.meets admitted typed trace).diagonal grows (fun depth _ => ?_) fun _ => rfl
      rw [Module.call, found, suits.function_eq]
      rfl

end Calls

section Ends

variable {call call' : Nat → Call Double}

/-- Calls that meet other ones end alike. -/
theorem ends_iff_of_meets {fine : Option (Datum Double) → Prop}
    (meets : ∀ bound, Meets bound bound (call' bound name arguments [])
      (fun depth _ => call depth name arguments [])
      fun result onward => onward = const (.done result) ∧ fine result.1) :
    (∀ ending, Call.Ends call name arguments ending ↔ Call.Ends call' name arguments ending) ∧
      (Call.Diverges call name arguments ↔ Call.Diverges call' name arguments) := by
  have ended : ∀ ending : Ending Double, ending.run ≠ .unfinished := by
    intro ending
    cases ending <;> exact nofun
  refine ⟨fun ending => ⟨?_, ?_⟩, fun diverges bound => ?_, fun diverges bound => ?_⟩
  · rintro ⟨bound, isEnding⟩
    exact ⟨bound, (meets bound).eq_of_ended isEnding (ended ending)⟩
  · rintro ⟨bound, isEnding⟩
    obtain ⟨depth, -, same⟩ := (meets bound).exists_eq (isEnding ▸ ended ending)
    exact ⟨depth, same.trans isEnding⟩
  · by_contra finished
    obtain ⟨depth, -, same⟩ := (meets bound).exists_eq finished
    exact finished (same.symm.trans (diverges depth))
  · by_contra finished
    exact finished (((meets bound).eq_of_ended rfl finished).symm.trans (diverges bound))

end Ends

/-- **Lowering preserves meaning.**  A call of a function of a built module, with arguments of the
types of its parameters, ends with an output and a value, or with a trap, exactly if the evaluation
of its source does, and runs on exactly if that does.  This holds whether or not the module passes
the check behind lowering: what stands behind the terminator of a block does not run. -/
theorem build_ends_iff {origin : Origin} {tokens : List Token} {file : SourceFile} {built : Built}
    (parsed : Program.ofTokens origin tokens = .ok program)
    (run : build options file program = .ok built) (member : function ∈ built.module.functions)
    (typed : arguments.map Datum.type = function.params.map Place.type) :
    (∀ ending, Call.Ends (built.module.call machine) function.name arguments ending ↔
      Call.Ends (sourceCall machine (sourceFunctions options file.stem program))
        function.name arguments ending) ∧
    (Call.Diverges (built.module.call machine) function.name arguments ↔
      Call.Diverges (sourceCall machine (sourceFunctions options file.stem program)) function.name
        arguments) := by
  obtain ⟨signature?, opened, last, translates⟩ :=
    build_translates (Program.written_of_ofTokens parsed) run
  have wellFormed : WellFormed options file.stem program :=
    (exists_built_iff.trans (lowerItems_ok_iff (sees_ofFile rfl))).mp ⟨built, run⟩
  have found := function?_of_mem translates.names_nodup member
  exact ends_iff_of_meets fun bound => translates.call_meets wellFormed bound found typed []

/-- A function with a loop, a condition of two parts and a call of itself. -/
def weighFile : SourceFile :=
  ⟨"weigh.tss", "func weigh(n: int) int \x7b
      var s = 0;
      for (var i = 1; i <= n; i += 1) \x7b
        if (i == 2 && n > 0) \x7b continue; \x7d
        s += i + weigh(i - 1);
      \x7d
      return s;
    \x7d"⟩

theorem build_ends_iff_weigh : ∃ program built function,
    Program.ofTokens weighFile.origin (weighFile.tokens.toOption.getD []) = .ok program ∧
      build {} weighFile program = .ok built ∧ function ∈ built.module.functions ∧
      function.params.map Place.type = [.int] ∧
      Call.Ends (sourceCall binary64 (sourceFunctions {} weighFile.stem program)) function.name
        [.int 3#32] (.returned (some (.int 5#32)) []) := by
  obtain ⟨program, built, parsed, run, check⟩ := exists_built weighFile.origin
    (weighFile.tokens.toOption.getD []) {} weighFile
    (fun built => built.module.functions.any fun function =>
      function.params.map Place.type == [.int] &&
        returnsWord 5#32 (built.module.call binary64 20 function.name [.int 3#32] []))
    (by
      simp only [weighFile, Bytes.ofString_eq]
      decide +kernel)
  simp only [List.any_eq_true, Bool.and_eq_true, beq_iff_eq] at check
  obtain ⟨function, member, params, returns⟩ := check
  have ends : Call.Ends (built.module.call binary64) function.name [.int 3#32]
      (.returned (some (.int 5#32)) []) := ⟨20, eq_of_returnsWord returns⟩
  have typed : ([.int 3#32] : List (Datum Float)).map Datum.type = function.params.map Place.type :=
    params.symm
  exact ⟨program, built, function, parsed, run, member, params,
    ((build_ends_iff parsed run member typed).1 _).mp ends⟩

end ScriptCompiler.Lowering
