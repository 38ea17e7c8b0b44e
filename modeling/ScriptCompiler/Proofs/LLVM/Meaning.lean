import ScriptCompiler.Proofs.LLVM.Mirroring
import ScriptCompiler.Proofs.Optimize.Meaning

/-!
# Generation preserves meaning

The code of a function runs like the function: its slots are made at first, wherever the function
makes them, and from then on the code of each block mirrors the block.  So a call of a function of a
built module, optimized or not, that does not trap returns what the call of its code returns, with
the same output (`generate_returns_iff`).
-/

namespace ScriptCompiler.LLVM

open IR Lowering Semantics

/-! ### Functions -/

/-- What the run of a function relies on. -/
structure Executable (module : IR.Module) (source : IR.Function) : Prop where
  /-- Definitions come first. -/
  grounded : source.Grounded
  /-- Operands have the right types and are there. -/
  sound : source.Sound module.interface
  /-- Copies are made of constants. -/
  copies : source.CopiesConstants
  /-- The entry comes first, and edges are those of the code. -/
  wired : source.Wired
  /-- Blocks are well formed. -/
  wellFormed : source.violations module.knows = []

section Functions

variable {module : IR.Module} {wraps : Bool} {generated : Module} {source : IR.Function}
  {code : Function}

theorem Executable.exists_blocks (executable : Executable module source) :
    ∃ entry others, source.blocks = entry :: others ∧ entry.name.id = IR.Function.entry := by
  have first := executable.wired.first
  cases blocks : source.blocks with
  | nil => simp [blocks] at first
  | cons entry others =>
      rw [blocks, List.map_cons, List.head?_cons, Option.some.injEq] at first
      exact ⟨entry, others, rfl, first⟩

/-- No jump leads to the entry. -/
theorem Executable.target_ne_entry (executable : Executable module source) {block : IR.Block}
    (member : block ∈ source.blocks) {instr : Instr} (within : instr ∈ block.instrs)
    {target : BlockName} (aims : target ∈ instr.targets) : target.id ≠ IR.Function.entry := by
  intro same
  have found := IR.Function.block?_of_mem executable.wired.unique member
  have jumps : target.id ∈ source.targetsOf block.name.id := by
    rw [IR.Function.targetsOf, IR.Function.code_eq found]
    exact mem_targetIds.mpr ⟨instr, within, target, aims, rfl⟩
  have edge := (executable.wired.agree _ _).mp ((executable.wired.jumps _ _).mpr jumps)
  obtain ⟨entry, isEntry⟩ := Option.isSome_iff_exists.mp executable.wired.entry_isSome
  rw [same, IR.Function.predecessorsOf_eq isEntry,
    (Function.violations_eq_nil_iff.mp executable.wellFormed).2 entry isEntry] at edge
  cases edge

theorem Function.block?_of_mem {function : Function}
    (once : (function.blocks.map Block.label).Nodup)
    {block : Block} (member : block ∈ function.blocks) :
    function.block? block.label = some block := by
  cases found : function.block? block.label with
  | none => exact absurd (List.find?_eq_none.mp found block member) (by simp)
  | some other =>
      have labelled : other.label = block.label := by simpa using List.find?_some found
      exact congrArg some
        (List.inj_on_of_nodup_map once (List.mem_of_find?_eq_some found) member labelled)

variable {Double : Type} {machine : Machine Double}

/-- The slots of a function are all made at first, and hold nothing. -/
theorem runInsts_allocas (call : Routine Double) (places : List Place)
    (once : (places.map Place.id).Nodup) (activation : Activation Double) (output : Output Double) :
    ∃ after, runInsts machine generated call
        (places.map fun place => .alloca (slotName place) (.ofBasic place.type)) activation output =
          .done (after, output) ∧ after.arguments = activation.arguments ∧
      (∀ place ∈ places, after.slots (slotName place) = some (.ofBasic place.type, none)) ∧
      ∀ name, (∀ place ∈ places, slotName place ≠ name) →
        after.slots name = activation.slots name := by
  induction places generalizing activation with
  | nil => exact ⟨activation, rfl, rfl, by simp, by simp⟩
  | cons place places ih =>
      rw [List.map_cons, List.nodup_cons] at once
      obtain ⟨after, runs, arguments, made, others⟩ :=
        ih once.2 (activation.put (slotName place) (.ofBasic place.type) none)
      have apart : ∀ other ∈ places, slotName other ≠ slotName place := fun other within same =>
        once.1 (List.mem_map.mpr ⟨other, within, slotName_inj same⟩)
      refine ⟨after, runs, arguments, fun other within => ?_, fun name differ => ?_⟩
      · rcases List.mem_cons.mp within with rfl | later
        · rw [others _ apart]
          exact Function.update_self _ _ _
        · exact made other later
      · rw [others name fun other later => differ other (List.mem_cons_of_mem _ later)]
        exact Function.update_of_ne (differ place List.mem_cons_self).symm _ _

/-- Arguments are found by the names of their parameters. -/
theorem lookup_arguments (sound : source.Sound module.interface) {arguments : List (Datum Double)}
    (typed : arguments.map Datum.type = source.params.map Place.type) {place : Place}
    (own : place ∈ source.params) :
    ((source.params.map paramName).zip (arguments.map Scalar.ofDatum)).lookup (paramName place) =
      arguments[place.id]?.map .ofDatum := by
  have length : arguments.length = source.params.length := by
    simpa using congrArg List.length typed
  obtain ⟨index, found⟩ := List.mem_iff_getElem?.mp own
  obtain rfl := sound.params_id index place found
  have below : place.id < arguments.length := by
    rw [length]
    exact (List.getElem?_eq_some_iff.mp found).1
  have once :
    (((source.params.map paramName).zip (arguments.map Scalar.ofDatum)).map Prod.fst).Nodup := by
    rw [List.map_fst_zip (by simp [length])]
    exact List.pairwise_map.mpr ((List.pairwise_map.mp sound.params_nodup).imp
      fun differ same => differ (paramName_inj same))
  rw [List.getElem?_eq_getElem below, Option.map_some]
  refine lookup_of_mem once (List.mem_iff_getElem?.mpr ⟨place.id, ?_⟩)
  simp [List.getElem?_zip_eq_some, found, below]

section Runs

variable {stand : Nat → Option Operand} {call : Call Double} {call' : Routine Double}
  (executable : Executable module source) (resolves : Resolves module wraps generated)
  (fine : FineCalls module.interface call) (calls : CallsAlike module wraps call call')
include executable resolves fine calls

/-- The code of a block runs like the block where control goes on alike. -/
theorem Coded.follows {start : List Inst} {block : IR.Block} {blockCode : Block}
    (coded : Coded ⟨module, wraps, source⟩ source stand start block blockCode)
    (member : block ∈ source.blocks) {known : Nat → Set Supply}
    (covered : Covered known (known block.name.id) block.instrs) {goto : Onward Double}
    {goto' : Course Double}
    (gotos : ∀ instr ∈ block.instrs, ∀ target ∈ instr.targets,
      GoesOnAt machine module wraps generated source stand known goto goto' target)
    {frame : IR.Frame Double} {image image' : Activation Double} (trace : Trace Double)
    (starts : runInsts machine generated call' start image (trace.map printedAs) =
      .done (image', trace.map printedAs))
    (suits : frame.Suits source (known block.name.id))
    (mirrors : Mirrors machine generated source stand frame image') :
    Run.Upto outcomeOf (runInstrs machine module.strings call goto block.instrs frame trace)
      (blockCode.run machine generated call' goto' image (trace.map printedAs)) := by
  obtain ⟨earlier, later, locals, insts, last, split, position, emits, placed, isCode, -⟩ := coded
  have formed := (Function.violations_eq_nil_iff.mp executable.wellFormed).1 block member
  obtain ⟨body, ending, isEnd, terminator⟩ := Block.isTerminated_iff.mp formed.terminated
  rw [Block.run, isCode, runInsts_append, starts]
  exact emits.follows resolves executable.grounded executable.sound executable.copies fine
    calls split
    position placed formed.shaped ⟨ending, by simp [isEnd], terminator⟩ covered suits mirrors
      gotos trace

/-- Control goes on alike at every block but the entry. -/
theorem goesOnAt {entry : IR.Block} {others : List IR.Block} {first : Block} {rest : List Block}
    (blocks : source.blocks = entry :: others) (isEntry : entry.name.id = IR.Function.entry)
    (codes : code.blocks = first :: rest)
    (labels : code.blocks.map Block.label = source.blocks.map fun block => block.name.label)
    (coded : List.Forall₂ (Coded ⟨module, wraps, source⟩ source stand []) others rest)
    {known : Nat → Set Supply}
    (covered : ∀ block ∈ source.blocks, Covered known (known block.name.id) block.instrs)
    (bound : Nat) {target : BlockName} (owned : source.owns target = true)
    (inner : target.id ≠ IR.Function.entry) :
    GoesOnAt machine module wraps generated source stand known
      (source.enter machine module.strings call bound) (code.goto machine generated call' bound)
      target := by
  induction bound generalizing target with
  | zero => exact fun _ _ _ _ _ => rfl
  | succ bound ih =>
      intro frame image trace suits mirrors
      obtain ⟨block, found⟩ := Option.isSome_iff_exists.mp owned
      have member := IR.Function.mem_of_block? found
      have isTarget := IR.Function.id_of_block? found
      have later : block ∈ others := by
        rw [blocks] at member
        rcases List.mem_cons.mp member with rfl | later
        · exact absurd (isTarget.symm.trans isEntry) inner
        · exact later
      obtain ⟨blockCode, within, isCoded⟩ := exists_of_forall₂ coded.flip later
      have label : blockCode.label = block.name.label := by
        obtain ⟨_, _, _, _, _, -, -, -, -, -, label⟩ := isCoded
        exact label
      have found' : code.block? block.name.label = some blockCode := by
        rw [← label]
        refine Function.block?_of_mem ?_ (codes ▸ List.mem_cons_of_mem _ within)
        rw [labels]
        exact executable.sound.labels_nodup
      have isLabel : Surroundings.label ⟨module, wraps, source⟩ target = some block.name.label := by
        simp [Surroundings.label, found]
      rw [isLabel]
      simp only [IR.Function.enter, found, Function.goto, Option.bind_some, found']
      have formed := (Function.violations_eq_nil_iff.mp executable.wellFormed).1 block member
      refine Coded.follows executable resolves fine calls isCoded member
        (covered block member) ?_ trace rfl (isTarget ▸ suits) mirrors
      intro instr inside next aims
      exact ih (formed.owned instr inside next aims) (executable.target_ne_entry member inside aims)

/-- **The code of a function runs like the function.** -/
theorem EmitsFunction.follows (emits : EmitsFunction module wraps source code) (bound : Nat)
    {arguments : List (Datum Double)}
    (typed : arguments.map Datum.type = source.params.map Place.type) (trace : Trace Double) :
    Run.Upto outcomeOf
      (source.enter machine module.strings call bound IR.Function.entry { arguments } trace)
      (code.goto machine generated call' bound (code.blocks.head?.map Block.label)
        { arguments := (code.params.map Prod.fst).zip (arguments.map .ofDatum) }
        (trace.map printedAs)) := by
  obtain ⟨entry, others, blocks, isEntry⟩ := executable.exists_blocks
  obtain ⟨stand, first, rest, codes, coded, codedLater⟩ :=
    emits.exists_stand executable.grounded executable.sound.typed executable.copies blocks
  obtain ⟨known, start, covered⟩ := executable.sound.covered
  have labels := emits.blocks.labels
  have member : entry ∈ source.blocks := by simp [blocks]
  cases bound with
  | zero => rfl
  | succ bound =>
      have found : source.block? IR.Function.entry = some entry :=
        isEntry ▸ IR.Function.block?_of_mem executable.wired.unique member
      have found' : code.block? first.label = some first := by
        refine Function.block?_of_mem ?_ (codes ▸ List.mem_cons_self)
        rw [labels]
        exact executable.sound.labels_nodup
      have isFirst : code.blocks.head?.map Block.label = some first.label := by simp [codes]
      rw [isFirst]
      simp only [IR.Function.enter, found, Function.goto, Option.bind_some, found']
      have names : code.params.map Prod.fst = source.params.map paramName := by
        simp [emits.params_eq, Function.comp_def]
      obtain ⟨image, runs, sameArguments, made, -⟩ := runInsts_allocas call' (slots source)
        (slots_nodup_of_grounded executable.grounded)
        { arguments := (code.params.map Prod.fst).zip (arguments.map .ofDatum) }
          (trace.map printedAs)
      have suits : ({ arguments } : IR.Frame Double).Suits source (known entry.name.id) := by
        refine ⟨typed, fun temp _ datum there => absurd there (Option.some_ne_none _).symm,
          fun place _ datum there => absurd there (Option.some_ne_none _).symm, ?_⟩
        simp [isEntry, start]
      have mirrors : Mirrors machine generated source stand { arguments } image := by
        refine ⟨fun place own => ?_,
          fun id datum operand there => absurd there (Option.some_ne_none _).symm,
            fun place own => ?_⟩
        · rw [sameArguments, names]
          exact lookup_arguments executable.sound typed own
        · rw [made place own]
          rfl
      have formed := (Function.violations_eq_nil_iff.mp executable.wellFormed).1 entry member
      refine coded.follows executable resolves fine calls member (covered entry member) ?_
        trace runs suits mirrors
      intro instr inside next aims
      exact goesOnAt executable resolves fine calls blocks isEntry codes labels codedLater
        covered bound
        (formed.owned instr inside next aims) (executable.target_ne_entry member inside aims)

end Runs

end Functions

/-! ### Modules -/

section Modules

variable {options : Options} {module : IR.Module} {generated : Module} {codes : List Function}

theorem EmitsModule.resolves (emits : EmitsModule options module generated codes)
    (named : Named module) : Resolves module (wrapsEntry options module) generated where
  texts := by
    intro index content there
    have member : (⟨stringName index, content ++ [0]⟩ : Text) ∈ generated.texts := by
      rw [emits.texts_eq]
      exact List.mem_map.mpr ⟨(content, index), List.mk_mem_zipIdx_iff_getElem?.mpr there, rfl⟩
    cases found : generated.texts.find? fun constant => constant.name == stringName index &&
        constant.content.length == content.length + 1 with
    | none => exact absurd (List.find?_eq_none.mp found _ member) (by simp)
    | some constant =>
        have isNamed := List.find?_some found
        have within := List.mem_of_find?_eq_some found
        rw [emits.texts_eq] at within
        obtain ⟨⟨other, place⟩, listed, rfl⟩ := List.mem_map.mp within
        simp only [Bool.and_eq_true, beq_iff_eq] at isNamed
        obtain rfl := stringName_injective isNamed.1
        obtain rfl := Option.some.inj (there.symm.trans (List.mk_mem_zipIdx_iff_getElem?.mp listed))
        rfl
  functions := by
    intro function member
    have isSymbol : Surroundings.symbol (wrapsEntry options module) function.name ∈
        codes.map Function.name := by
      rw [emits.names_eq]
      exact List.mem_map_of_mem member
    have apart := (emits.codeName_ne named _ isSymbol).2
    rw [emits.declarations_eq, List.any_map, List.any_eq_false]
    intro external within same
    exact apart (List.mem_map.mpr ⟨external, within, by simpa using same⟩)
  externals := by
    intro external member
    refine ⟨?_, ?_⟩
    · rcases named.externals with none_ | one
      · simp [none_] at member
      · simpa [one] using member
    · rw [emits.declarations_eq, List.any_map, List.any_eq_true]
      exact ⟨external, member, by simp⟩

theorem EmitsModule.function?_eq (emits : EmitsModule options module generated codes)
    (named : Named module) {code : Function} (member : code ∈ codes) :
    generated.function? code.name = some code := by
  have within : code ∈ generated.functions := by
    rcases emits.wrapped with ⟨-, same⟩ | ⟨-, entry, -, same⟩
    · exact same ▸ member
    · exact same ▸ List.mem_append_left _ member
  have once := (emits.functionNames_nodup named).1
  cases found : generated.function? code.name with
  | none => exact absurd (List.find?_eq_none.mp found code within) (by simp)
  | some other =>
      have isNamed : other.name = code.name := by simpa using List.find?_some found
      exact congrArg some
        (List.inj_on_of_nodup_map once (List.mem_of_find?_eq_some found) within isNamed)

variable {Double : Type} {machine : Machine Double}

/-- **Functions of a module can be called like their code.** -/
theorem EmitsModule.callsAlike (emits : EmitsModule options module generated codes)
    (named : Named module) (verified : module.violations = [])
    (executable : ∀ function ∈ module.functions, Executable module function) (bound : Nat) :
    CallsAlike module (wrapsEntry options module) (module.call machine bound)
      (generated.call machine bound) := by
  have sound : module.Sound := fun function member => (executable function member).sound
  induction bound with
  | zero => exact fun _ _ _ _ _ _ => rfl
  | succ bound ih =>
      intro name function found data typed trace
      have member := List.mem_of_find?_eq_some found
      obtain ⟨code, within, emitted⟩ := exists_of_forall₂ emits.functions.flip member
      have found' := emits.function?_eq named within
      rw [emitted.name_eq] at found'
      have types : (data.map Scalar.ofDatum).map Scalar.type = code.params.map Prod.snd := by
        have basic := congrArg (List.map LType.ofBasic) typed
        simpa [emitted.params_eq, Function.comp_def, Scalar.type_ofDatum] using basic
      simp only [IR.Module.call, found, Module.call, found', types, if_true]
      exact EmitsFunction.follows (executable function member) (emits.resolves named)
        (Module.call_sound sound verified bound) ih emitted bound typed trace

end Modules

/-! ### Built modules -/

section Built

variable {signature? : Bytes → Option Signature}

/-- The moves of lowering make no copies. -/
theorem copy_notMem_of_moves {tidy : Prop} {before after : Draft} (sound : before.Sound signature?)
    (moves : Moves signature? tidy before after)
    (none_ : ∀ dest value, .copy dest value ∉ before.state.function.instrs) :
    ∀ dest value, .copy dest value ∉ after.state.function.instrs := by
  induction moves with
  | refl => exact none_
  | tail earlier move ih =>
      intro dest value member
      cases move with
      | note number more function current strings externals =>
          simp only [function] at member
          exact ih dest value member
      | put instr count takes typed demands targets result external plain =>
          have middle := sound.moves earlier
          have instrs := State.instrs_put_perm instr count middle.numbered middle.owned
          rcases List.mem_cons.mp (instrs.mem_iff.mp member) with here | old
          · exact plain dest value here.symm
          · exact ih dest value old
      | block label listed =>
          simp only [State.addBlock, Function.instrs_newBlock] at member
          exact ih dest value member
      | enter name owned => exact ih dest value member

theorem copiesConstants_of_lowers {state last : State} {source : SourceFunction}
    {function : IR.Function} (lowers : Lowers signature? state source function last) :
    function.CopiesConstants := by
  obtain ⟨name, params, result, after, start, moves, -, rfl⟩ := lowers.moves
  have empty : (Draft.begin state (.ofSignature name params result)).state.function.instrs = [] :=
    instrs_ofSignature
  intro dest value member
  exact absurd member (copy_notMem_of_moves start moves (by simp [empty]) dest value)

/-- Passes make copies of constants only. -/
theorem copies_rewriting :
    Rewriting fun function other => function.CopiesConstants → other.CopiesConstants where
  refl _ copies := copies
  trans first second copies := second (first copies)
  folding function copies := by
    intro dest value member
    obtain ⟨original, within, folds⟩ := exists_of_forall₂ function.instrs_foldConstants member
    obtain ⟨known, dropped, folds⟩ := folds
    generalize isCopy : Instr.copy dest value = folded at folds
    cases folds with
    | computed result =>
        cases isCopy
        exact ⟨_, rfl⟩
    | decided choice => cases isCopy
    | kept =>
        cases original with
        | copy target content =>
            obtain ⟨constant, rfl⟩ := copies target content within
            cases isCopy
            exact ⟨constant, rfl⟩
        | _ => cases isCopy
  deadCode function copies := fun dest value member =>
    copies dest value (function.eliminateDeadCode_trims.instrs_subset member)

theorem violations_optimize {module : IR.Module} (verified : module.violations = [])
    (orderly : ∀ function ∈ module.functions, function.Orderly module.knows)
    (optimizer : Optimizer) :
    (optimizer.optimize module).1.violations = [] := by
  have names : (optimizer.optimize module).1.functions.map IR.Function.name =
      module.functions.map IR.Function.name :=
    map_eq_of_forall₂ _ (sameHead_rewriting.optimize optimizer module) fun _ _ head => head.name_eq
  have knows : (optimizer.optimize module).1.knows = module.knows := Module.knows_congr names rfl
  refine Module.violations_eq_nil_iff.mpr ⟨?_, fun function member => ?_⟩
  · exact (Module.violations_eq_nil_iff.mp verified).1.imp_right fun there =>
      (congrFun knows ⟨.defined, module.entry⟩).trans there
  · rw [knows]
    exact (optimizer.optimize_orderly orderly function member).wellFormed

/-- What generation and runs rely on holds in a built module, before and behind any optimizer. -/
theorem executable_of_built {file : SourceFile} {tokens : List Token} {program : Program}
    {entry : EntryOptions} {built : Built} (parsed : file.parse = .ok (tokens, program))
    (run : build entry file program = .ok built) (verified : built.module.violations = [])
    (optimizer : Optimizer) :
    ∀ module ∈ [built.module, (optimizer.optimize built.module).1],
      Named module ∧ module.violations = [] ∧
        ∀ function ∈ module.functions, Executable module function := by
  obtain ⟨-, read⟩ := SourceFile.ofTokens_of_parse parsed
  have written := Program.written_of_ofTokens read
  obtain ⟨signature?, opened, last, translates⟩ := build_translates written run
  have plain := SourceFile.point_notMem parsed
  have named := translates_named translates plain
  have orderly := translates.orderly verified
  have copies : ∀ function ∈ built.module.functions, function.CopiesConstants := by
    intro function member
    obtain ⟨source, -, earlier, later, lowers, -⟩ := translates.lowers.origin member
    exact copiesConstants_of_lowers lowers
  intro module listed
  simp only [List.mem_cons, List.not_mem_nil, or_false] at listed
  rcases listed with rfl | rfl
  · exact ⟨named, verified, fun function member => ⟨(orderly function member).grounded,
      translates.sound function member, copies function member, (orderly function member).wired,
      (orderly function member).wellFormed⟩⟩
  · have valid : ∀ function ∈ built.module.functions, function.result ≠ .invalid := by
      intro function member
      obtain ⟨source, -, earlier, later, lowers, -⟩ := translates.lowers.origin member
      exact lowers.valid
    have wellFormed := violations_optimize verified orderly optimizer
    have sound := optimizer.optimize_sound translates.sound orderly (build_typed written run) valid
      fun function member =>
        (spelt_optimize optimizer orderly (translates_spelt translates plain) function
          member).labels_nodup
    refine ⟨named.optimize optimizer, wellFormed, fun function member => ?_⟩
    have behind := optimizer.optimize_orderly orderly function member
    obtain ⟨original, within, keeps⟩ :=
      exists_of_forall₂ (copies_rewriting.optimize optimizer built.module) member
    exact ⟨behind.grounded, sound function member, keeps (copies original within), behind.wired,
      (Module.violations_eq_nil_iff.mp wellFormed).2 function member⟩

end Built

/-- Runs that go alike at every bound end alike. -/
theorem ends_iff_of_upto {Double α β : Type} {convert : α → β} {run : Nat → Run Double α}
    {other : Nat → Run Double β} (alike : ∀ bound, Run.Upto convert (run bound) (other bound))
    (safe : ∀ bound trace, run bound ≠ .trapped trace) (fine : ∀ bound, run bound ≠ .stuck) :
    (∀ outcome, (∃ bound, other bound = .done outcome) ↔
      ∃ result, (∃ bound, run bound = .done result) ∧ outcome = convert result) ∧
    ((∀ bound, other bound = .unfinished) ↔ ∀ bound, run bound = .unfinished) := by
  have cases :
    ∀ bound, (∃ result, run bound = .done result ∧ other bound = .done (convert result)) ∨
      run bound = .unfinished ∧ other bound = .unfinished := by
    intro bound
    have same := alike bound
    cases isRun : run bound with
    | done result =>
        rw [isRun] at same
        exact .inl ⟨result, rfl, same⟩
    | unfinished =>
        rw [isRun] at same
        exact .inr ⟨rfl, same⟩
    | trapped trace => exact absurd isRun (safe bound trace)
    | stuck => exact absurd isRun (fine bound)
  constructor
  · intro outcome
    constructor
    · rintro ⟨bound, ended⟩
      rcases cases bound with ⟨result, isRun, isOther⟩ | ⟨-, isOther⟩
      · exact ⟨result, ⟨bound, isRun⟩, Run.done.inj (ended.symm.trans isOther)⟩
      · cases ended.symm.trans isOther
    · rintro ⟨result, ⟨bound, ended⟩, rfl⟩
      rcases cases bound with ⟨same, isRun, isOther⟩ | ⟨isRun, -⟩
      · cases ended.symm.trans isRun
        exact ⟨bound, isOther⟩
      · cases ended.symm.trans isRun
  · refine forall_congr' fun bound => ?_
    rcases cases bound with ⟨result, isRun, isOther⟩ | ⟨isRun, isOther⟩
    · exact iff_of_false (by simp [isOther]) (by simp [isRun])
    · exact iff_of_true isOther isRun

/-- **Generation preserves meaning.**  A call of a function of a built module, optimized or not,
that does not trap comes to what the call of its code comes to: the code returns the same value
behind the same output, and runs on exactly if the function does. -/
theorem generate_returns_iff {Double : Type} {machine : Machine Double} {file : SourceFile}
    {tokens : List Token} {program : Program} {entry : EntryOptions} {built : Built}
    (parsed : file.parse = .ok (tokens, program)) (run : build entry file program = .ok built)
    (verified : built.module.violations = []) (optimizer : Optimizer) (options : Options) :
    ∀ module ∈ [built.module, (optimizer.optimize built.module).1], ∀ generated,
      generate options module = .ok generated → ∀ function ∈ module.functions,
        ∀ arguments :
        List (Datum Double), arguments.map Datum.type = function.params.map Place.type →
          (∀ trace, ¬ Call.Ends (module.call machine) function.name arguments (.trapped trace)) →
            (∀ outcome, generated.Returns machine
                (Surroundings.symbol (wrapsEntry options module) function.name)
                (arguments.map .ofDatum) outcome ↔
              ∃ value trace,
                Call.Ends (module.call machine) function.name arguments (.returned value trace) ∧
                  outcome = (value.map .ofDatum, trace.map printedAs)) ∧
            (generated.RunsOn machine
                (Surroundings.symbol (wrapsEntry options module) function.name)
                (arguments.map .ofDatum) ↔
              Call.Diverges (module.call machine) function.name arguments) := by
  intro module listed generated made function member arguments typed safe
  obtain ⟨named, wellFormed, executable⟩ :=
    executable_of_built parsed run verified optimizer module listed
  obtain ⟨codes, emits⟩ := generate_emits made
  have found := function?_of_mem named.names_nodup member
  have alike : ∀ bound, Run.Upto outcomeOf (module.call machine bound function.name arguments [])
      (generated.call machine bound (Surroundings.symbol (wrapsEntry options module) function.name)
        (arguments.map .ofDatum) []) := fun bound =>
    emits.callsAlike named wellFormed executable bound function.name function found
      arguments typed []
  have fine : ∀ bound, module.call machine bound function.name arguments [] ≠ .stuck := by
    intro bound
    have signature : module.interface.signature? function.name = some function.signature := by
      simp [IR.Module.interface, found]
    exact (Module.call_sound (fun other within => (executable other within).sound) wellFormed bound
      function.name function.signature signature arguments typed []).1
  obtain ⟨returns, runsOn⟩ :=
    ends_iff_of_upto alike (fun bound trace ends => safe trace ⟨bound, ends⟩) fine
  refine ⟨fun outcome => (returns outcome).trans ?_, runsOn⟩
  exact Prod.exists

/-- A file whose entry function prints a truth value and returns a number. -/
def printFile : SourceFile :=
  ⟨"test.tss", "func main() int \x7b var x = 1; print(x < 2); return x + 2; \x7d"⟩

/-- Whether a run returns three behind the output of a truth value. -/
def printsTrue : Run Float (Option (Datum Float) × Trace Float) → Bool
  | .done (some (.int value), [⟨format, .bool true⟩]) =>
      value == 3#32 && format == Bytes.ofString "%d\n"
  | _ => false

theorem eq_of_printsTrue {run : Run Float (Option (Datum Float) × Trace Float)}
    (prints : printsTrue run = true) :
    run = (Ending.returned (some (.int 3#32)) [⟨Bytes.ofString "%d\n", .bool true⟩]).run := by
  unfold printsTrue at prints
  split at prints
  · rw [Bool.and_eq_true, beq_iff_eq, beq_iff_eq] at prints
    rw [prints.1, prints.2]
    rfl
  · cases prints

theorem generate_returns_iff_print : ∃ tokens program built generated,
    printFile.parse = .ok (tokens, program) ∧ build {} printFile program = .ok built ∧
      built.module.violations = [] ∧ generate {} built.module = .ok generated ∧
      generated.Returns binary64 "main" []
        (some (.word 3#32), [[.text (Bytes.ofString "%d\n" ++ [0]), .word 1#32]]) := by
  obtain ⟨tokens, program, built, parsed, run, check⟩ := exists_compiled printFile {}
    (fun built => built.module.violations.isEmpty && (generate {} built.module).toOption.isSome &&
      built.module.functions.any fun function => function.name == Bytes.ofString "main" &&
        function.params.isEmpty && printsTrue (built.module.call binary64 5 function.name [] []))
    (by
      simp only [printFile, Bytes.ofString_eq]
      decide +kernel)
  simp only [Bool.and_eq_true, List.isEmpty_iff, List.any_eq_true, beq_iff_eq] at check
  obtain ⟨⟨verified, made⟩, function, member, ⟨name, params⟩, prints⟩ := check
  have ends : Call.Ends (built.module.call binary64) function.name []
      (.returned (some (.int 3#32)) [⟨Bytes.ofString "%d\n", .bool true⟩]) :=
    ⟨5, eq_of_printsTrue prints⟩
  have safe : ∀ trace, ¬ Call.Ends (built.module.call binary64) function.name [] (.trapped trace) :=
    fun trace traps => nomatch ends.unique (fun _ _ => IR.Module.call_below _) traps
  cases generation : generate {} built.module with
  | error stop => simp [generation, Except.toOption] at made
  | ok generated =>
      have alike :=
        generate_returns_iff parsed run verified (Optimizer.ofLevel 0) {} _ List.mem_cons_self
        generated generation function member [] (by simp [params]) safe
      refine ⟨tokens, program, built, generated, parsed, run, verified, generation, ?_⟩
      have returns := (alike.1 _).mpr ⟨_, _, ends, rfl⟩
      rw [name] at returns
      exact returns

end ScriptCompiler.LLVM
