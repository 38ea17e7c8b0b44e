import Mathlib.Data.List.Nodup
import ScriptCompiler.Proofs.LLVM.Standing
import ScriptCompiler.Proofs.Lowering.Dominance
import ScriptCompiler.Proofs.Syntax.Declared

/-!
# Names in generated code

Parameters, slots and blocks of a function share one namespace, and so do the functions and the
string constants of a module.  Generated names are put together from names of the source, numbers
and points, and they are told apart by where the points stand and by the numbers at their ends.

Names of a module never clash.  Within a function there is one way for a clash
(`Overlaps`): a parameter that is named for the number of the slot of a variable `arg`.
-/

namespace ScriptCompiler.LLVM

open IR Lowering

/-! ### Namespaces -/

/-- The name of the slot that an instruction makes. -/
def Inst.slotName? : Inst → Option Bytes
  | .alloca name _ => some name
  | _ => none

/-- The names of the slots of a function. -/
def Function.slotNames (function : Function) : List Bytes :=
  function.blocks.flatMap fun block => block.insts.filterMap Inst.slotName?

/-- The names in a function: those of its parameters, its slots and its blocks. -/
def Function.localNames (function : Function) : List Bytes :=
  function.params.map Prod.fst ++ function.slotNames ++ function.blocks.map Block.label

/-- The names in a module: those of its string constants and of its functions. -/
def Module.globalNames (module : Module) : List Bytes :=
  module.texts.map Text.name ++ module.declarations.map Declaration.name ++
    module.functions.map Function.name

section Emitted

variable {env : Surroundings} {locals last : Locals} {insts : List Inst}

theorem Passes.slotNames {operands : List (Nat × Operand)} {fixed next final : Nat}
    {values : List Value} {passed : List Operand}
    (passes : Passes env operands fixed next values insts passed final) :
    insts.filterMap Inst.slotName? = [] := by
  induction passes with
  | nil => rfl
  | plain _ _ _ ih => exact ih
  | widened _ _ _ ih => simpa [Inst.slotName?] using ih

/-- Slots are not made by the code of instructions. -/
theorem Emits.slotNames {instr : Instr} {terminator : Option Terminator}
    (emits : Emits env locals instr insts terminator last) :
    insts.filterMap Inst.slotName? = [] := by
  cases emits with
  | alloca | copy | jump | branch | leave | ret => rfl
  | load | store => rfl
  | binary _ _ made => cases made <;> rfl
  | unary _ made => cases made <;> rfl
  | call _ passes _ => simp [passes.slotNames, Inst.slotName?]
  | command _ passes _ => simp [passes.slotNames, Inst.slotName?]

theorem EmitsAll.slotNames {earlier terminator : Option Terminator} {instrs : List Instr}
    (emits : EmitsAll env locals earlier instrs insts terminator last) :
    insts.filterMap Inst.slotName? = [] := by
  induction emits with
  | nil => rfl
  | cons first _ ih => simp [first.slotNames, ih]

theorem EmitsBlocks.slotNames {start : List Inst} {sources : List IR.Block} {blocks : List Block}
    (emits : EmitsBlocks env locals start sources blocks) (entered : sources = [] → start = []) :
    (blocks.flatMap fun block => block.insts.filterMap Inst.slotName?) =
      start.filterMap Inst.slotName? := by
  induction emits with
  | nil => simp [entered rfl]
  | cons first _ ih => simp [first.slotNames, ih fun _ => rfl]

theorem EmitsBlocks.labels {start : List Inst} {sources : List IR.Block} {blocks : List Block}
    (emits : EmitsBlocks env locals start sources blocks) :
    blocks.map Block.label = sources.map fun block => block.name.label := by
  induction emits with
  | nil => rfl
  | cons _ _ ih => simp [ih]

/-- The names in the code of a function. -/
theorem EmitsFunction.localNames_eq {module : IR.Module} {wraps : Bool} {source : IR.Function}
    {code : Function} (emits : EmitsFunction module wraps source code) :
    code.localNames = source.params.map paramName ++ (slots source).map slotName ++
      source.blocks.map fun block => block.name.label := by
  have made : code.slotNames = (slots source).map slotName := by
    rw [Function.slotNames, emits.blocks.slotNames]
    · simp [allocas, List.filterMap_map, Function.comp_def, Inst.slotName?]
    · intro empty
      simp [allocas, slots, IR.Function.instrs, empty]
  rw [Function.localNames, emits.params_eq, made, emits.blocks.labels, List.map_map]
  rfl

end Emitted

/-! ### Local names -/

/-- What the names in a function are made from. -/
structure Spelt (function : IR.Function) : Prop where
  /-- Parameters are named without points. -/
  params_plain : ∀ place ∈ function.params, 0x2E ∉ place.name
  /-- Parameters have different names. -/
  params_nodup : (function.params.map Place.name).Nodup
  /-- Slots have different numbers. -/
  slots_nodup : ((slots function).map Place.id).Nodup
  /-- Blocks have labels that lowering asks for. -/
  labels_listed : ∀ block ∈ function.blocks, ∃ request ∈ blockLabels, ∃ number,
    block.name.label = numberedLabel request number
  /-- Blocks have different labels. -/
  labels_nodup : (function.blocks.map fun block => block.name.label).Nodup

/-- A parameter is named for the slot of a variable `arg`, as in
`func f(addr3 int) { var arg = 1; }` if that slot has the number three. -/
def Overlaps (function : IR.Function) : Prop :=
  ∃ param ∈ function.params, ∃ slot ∈ slots function,
    slot.name = Bytes.ofString "arg" ∧ param.name = "addr" ++ Bytes.ofNat slot.id

section Apart

theorem paramName_eq (place : Place) :
    paramName place = Bytes.ofString "arg" ++ 0x2E :: place.name := by
  have point : (Bytes.ofString "arg.") = Bytes.ofString "arg" ++ [0x2E] := by decide
  rw [paramName, point, List.append_assoc, List.singleton_append]

theorem slotName_eq_point (place : Place) :
    slotName place = place.name ++ 0x2E :: (Bytes.ofString "addr" ++ Bytes.ofNat place.id) := by
  have point : (Bytes.ofString ".addr") = 0x2E :: Bytes.ofString "addr" := by decide
  rw [slotName, point, List.append_assoc, List.cons_append]

theorem slotName_eq_number (place : Place) :
    slotName place = (place.name ++ ".add") ++ 0x72 :: Bytes.ofNat place.id := by
  have letter : (Bytes.ofString ".addr") = Bytes.ofString ".add" ++ [0x72] := by decide
  rw [slotName, letter, List.append_assoc, List.append_assoc, List.append_assoc,
    List.singleton_append]

theorem paramName_inj {first second : Place} (same : paramName first = paramName second) :
    first.name = second.name :=
  List.append_cancel_left same

theorem slotName_inj {first second : Place} (same : slotName first = slotName second) :
    first.id = second.id := by
  rw [slotName_eq_number, slotName_eq_number] at same
  exact (Bytes.append_ofNat_inj (by decide) same).2

/-- A parameter whose name has no point shares its name with a slot in one case only. -/
theorem paramName_eq_slotName_iff {param slot : Place} (plain : 0x2E ∉ param.name) :
    paramName param = slotName slot ↔
      slot.name = Bytes.ofString "arg" ∧ param.name = "addr" ++ Bytes.ofNat slot.id := by
  rw [paramName_eq, slotName_eq_point, List.append_cons_inj_of_notMem (by decide) plain]
  constructor
  · rintro ⟨name, -, rest⟩
    exact ⟨name.symm, rest⟩
  · rintro ⟨name, rest⟩
    exact ⟨name.symm, rfl, rest⟩

/-- Labels do not begin like the names of parameters. -/
theorem paramName_ne_label {place : Place} {request : Bytes} {number : Nat}
    (listed : request ∈ blockLabels) : paramName place ≠ numberedLabel request number := by
  have starts : ∀ label ∈ blockLabels, 2 ≤ label.length ∧ label.take 2 ≠ [0x61, 0x72] := by decide
  obtain ⟨long, differ⟩ := starts request listed
  have begins : (numberedLabel request number).take 2 = request.take 2 := by
    cases number with
    | zero => rfl
    | succ number =>
        rw [numberedLabel, List.append_assoc, List.take_append_of_le_length long]
  intro same
  refine differ ?_
  rw [← begins, ← same, paramName_eq]
  rfl

/-- Labels do not end like the names of slots. -/
theorem slotName_ne_label {place : Place} {request : Bytes} {number : Nat}
    (listed : request ∈ blockLabels) : slotName place ≠ numberedLabel request number := by
  intro same
  cases number with
  | zero =>
      obtain ⟨byte, isLast, digit⟩ := Bytes.getLast?_append_ofNat (place.name ++ ".addr") place.id
      refine blockLabels_last listed byte ?_ digit
      rw [← slotName, same] at isLast
      exact isLast
  | succ number =>
      have label : numberedLabel request (number + 1) = request ++ 0x2E ::
        Bytes.ofNat (number + 1) := by
        have separator : (Bytes.ofString ".") = [0x2E] := by decide
        rw [numberedLabel, separator, List.append_assoc, List.singleton_append]
      rw [slotName_eq_number, label] at same
      exact absurd (Bytes.append_cons_ofNat_inj (by decide) (by decide) same).2.1 (by decide)

/-- **The names in the code of a function clash in one case only.** -/
theorem Spelt.nodup_iff {function : IR.Function} (spelt : Spelt function) :
    (function.params.map paramName ++ (slots function).map slotName ++
      function.blocks.map fun block => block.name.label).Nodup ↔ ¬ Overlaps function := by
  have params : (function.params.map paramName).Nodup :=
    List.pairwise_map.mpr ((List.pairwise_map.mp spelt.params_nodup).imp
      fun differ same => differ (paramName_inj same))
  have slots : ((slots function).map slotName).Nodup :=
    List.pairwise_map.mpr ((List.pairwise_map.mp spelt.slots_nodup).imp
      fun differ same => differ (slotName_inj same))
  have labels : ∀ name ∈ function.params.map paramName ++ (LLVM.slots function).map slotName,
      ∀ label ∈ function.blocks.map fun block => block.name.label, name ≠ label := by
    intro name member label within
    obtain ⟨block, there, rfl⟩ := List.mem_map.mp within
    obtain ⟨request, listed, number, isLabel⟩ := spelt.labels_listed block there
    rw [isLabel]
    rcases List.mem_append.mp member with isParam | isSlot
    · obtain ⟨place, -, rfl⟩ := List.mem_map.mp isParam
      exact paramName_ne_label listed
    · obtain ⟨place, -, rfl⟩ := List.mem_map.mp isSlot
      exact slotName_ne_label listed
  rw [List.nodup_append, List.nodup_append]
  constructor
  · rintro ⟨⟨-, -, differ⟩, -⟩ ⟨param, own, slot, made, named⟩
    exact differ _ (List.mem_map_of_mem own) _ (List.mem_map_of_mem made)
      ((paramName_eq_slotName_iff (spelt.params_plain param own)).mpr named)
  · intro apart
    refine ⟨⟨params, slots, fun name isParam other isSlot same => ?_⟩, spelt.labels_nodup, labels⟩
    obtain ⟨param, own, rfl⟩ := List.mem_map.mp isParam
    obtain ⟨slot, made, rfl⟩ := List.mem_map.mp isSlot
    exact apart ⟨param, own, slot, made,
      (paramName_eq_slotName_iff (spelt.params_plain param own)).mp same⟩

end Apart

/-! ### Global names -/

/-- What the names in a module are made from. -/
structure Named (module : IR.Module) : Prop where
  /-- Functions have different names. -/
  names_nodup : (module.functions.map IR.Function.name).Nodup
  /-- Functions are named without points, but for the one that is made for a file. -/
  names_plain : ∀ function ∈ module.functions,
    0x2E ∉ function.name ∨ ∃ stem, function.name = synthesizedEntry stem
  /-- Nothing but the output function is declared. -/
  externals : module.externals = [] ∨ module.externals = [formatter]

section Global

variable {module : IR.Module}

/-- Names of functions are different from those that generation makes up. -/
theorem Named.name_ne (named : Named module) {function : IR.Function}
    (member : function ∈ module.functions) :
    function.name.head? ≠ some 0x2E ∧ function.name ≠ Bytes.ofString "tss.main" := by
  rcases named.names_plain function member with plain | ⟨stem, isEntry⟩
  · refine ⟨fun starts => plain (List.mem_of_mem_head? starts), fun same => plain ?_⟩
    rw [same]
    decide
  · have starts : function.name.head? = some 0x6C := by
      rw [isEntry]
      rfl
    refine ⟨by rw [starts]; decide, fun same => ?_⟩
    rw [same] at starts
    exact absurd starts (by decide)

theorem symbol_eq (wraps : Bool) (name : Bytes) :
    Surroundings.symbol wraps name = name ∨
      wraps = true ∧ name = Bytes.ofString "main" ∧
        Surroundings.symbol wraps name = Bytes.ofString "tss.main" := by
  unfold Surroundings.symbol
  split
  · rename_i isMain
    simp only [Bool.and_eq_true, beq_iff_eq] at isMain
    exact .inr ⟨isMain.1, isMain.2, rfl⟩
  · exact .inl rfl

/-- With a wrapper no other function is called `main`. -/
theorem symbol_ne_main (name : Bytes) : Surroundings.symbol true name ≠ Bytes.ofString "main" := by
  unfold Surroundings.symbol
  split
  · decide
  · rename_i isOther
    simpa using isOther

theorem Named.symbols_nodup (named : Named module) (wraps : Bool) :
    (module.functions.map fun function => Surroundings.symbol wraps function.name).Nodup := by
  refine List.pairwise_map.mpr ((List.pairwise_map.mp named.names_nodup).imp_of_mem ?_)
  intro first second own other differ same
  rcases symbol_eq wraps first.name with plain | ⟨-, isMain, renamed⟩
  · rcases symbol_eq wraps second.name with plain' | ⟨-, -, renamed'⟩
    · exact differ (plain ▸ plain' ▸ same)
    · exact (named.name_ne own).2 (plain ▸ same.trans renamed')
  · rcases symbol_eq wraps second.name with plain' | ⟨-, isMain', -⟩
    · exact (named.name_ne other).2 (plain' ▸ (renamed.symm.trans same).symm)
    · exact differ (isMain.trans isMain'.symm)

theorem stringName_injective : Function.Injective IR.stringName := by
  intro first second same
  have point : (Bytes.ofString ".str.") = Bytes.ofString ".str" ++ [0x2E] := by decide
  rw [IR.stringName, IR.stringName] at same
  exact Bytes.ofNat_injective (List.append_cancel_left same)

variable {options : Options} {generated : Module} {codes : List Function}

theorem EmitsModule.names_eq (emits : EmitsModule options module generated codes) :
    codes.map Function.name = module.functions.map fun function =>
      Surroundings.symbol (wrapsEntry options module) function.name := by
  have functions := emits.functions
  clear emits
  generalize module.functions = sources at functions
  induction functions with
  | nil => rfl
  | cons first _ ih => rw [List.map_cons, List.map_cons, first.name_eq, ih]

theorem Named.declared_eq (named : Named module) :
    ∀ name ∈ module.externals.map External.name, name = Bytes.ofString "printf" := by
  rcases named.externals with same | same <;> simp [same, formatter]

/-- Names of functions are different from those of string constants and of declared functions. -/
theorem EmitsModule.codeName_ne (emits : EmitsModule options module generated codes)
    (named : Named module) : ∀ name ∈ codes.map Function.name,
      name.head? ≠ some 0x2E ∧ name ∉ module.externals.map External.name := by
  intro name member
  rw [emits.names_eq] at member
  obtain ⟨function, own, rfl⟩ := List.mem_map.mp member
  rcases symbol_eq (wrapsEntry options module) function.name with plain | ⟨-, -, renamed⟩
  · rw [plain]
    refine ⟨(named.name_ne own).1, fun clash => ?_⟩
    obtain ⟨external, there, same⟩ := List.mem_map.mp clash
    have undefined := List.find?_eq_none.mp (emits.apart external there) function own
    exact undefined (by simp [same])
  · rw [renamed]
    exact ⟨by decide, fun clash => absurd (named.declared_eq _ clash) (by decide)⟩

theorem EmitsModule.functionNames_nodup (emits : EmitsModule options module generated codes)
    (named : Named module) : (generated.functions.map Function.name).Nodup ∧
      ∀ name ∈ generated.functions.map Function.name,
        name.head? ≠ some 0x2E ∧ name ∉ module.externals.map External.name := by
  have symbols := named.symbols_nodup (wrapsEntry options module)
  rw [← emits.names_eq] at symbols
  have codeNames := emits.codeName_ne named
  rcases emits.wrapped with ⟨-, same⟩ | ⟨wraps, entry, -, same⟩
  · rw [same]
    exact ⟨symbols, codeNames⟩
  · have isMain : (mainWrapper true entry).name = Bytes.ofString "main" := rfl
    rw [same, List.map_append, List.map_singleton, isMain, List.nodup_append]
    refine ⟨⟨symbols, List.nodup_singleton _, fun name member other isWrapper => ?_⟩,
      fun name member => ?_⟩
    · obtain rfl := List.mem_singleton.mp isWrapper
      rw [emits.names_eq, wraps] at member
      obtain ⟨function, -, rfl⟩ := List.mem_map.mp member
      exact symbol_ne_main function.name
    · rcases List.mem_append.mp member with own | isWrapper
      · exact codeNames name own
      · obtain rfl := List.mem_singleton.mp isWrapper
        exact ⟨by decide, fun clash => absurd (named.declared_eq _ clash) (by decide)⟩

/-- **The names in generated modules do not clash.** -/
theorem EmitsModule.globalNames_nodup (emits : EmitsModule options module generated codes)
    (named : Named module) : generated.globalNames.Nodup := by
  have texts : (generated.texts.map Text.name).Nodup := by
    rw [emits.texts_eq, List.map_map]
    have numbers :
      (Text.name ∘ fun entry : Bytes × Nat => ⟨IR.stringName entry.2, entry.1 ++ [0]⟩) =
        IR.stringName ∘ Prod.snd := rfl
    rw [numbers, ← List.map_map, List.zipIdx_map_snd]
    exact (List.nodup_range').map stringName_injective
  have points : ∀ name ∈ generated.texts.map Text.name, name.head? = some 0x2E := by
    rw [emits.texts_eq, List.map_map]
    intro name member
    obtain ⟨entry, -, rfl⟩ := List.mem_map.mp member
    rfl
  have declarations : generated.declarations.map Declaration.name =
      module.externals.map External.name := by
    rw [emits.declarations_eq, List.map_map]
    rfl
  have declaredOnce : (module.externals.map External.name).Nodup := by
    rcases named.externals with same | same <;> simp [same]
  obtain ⟨functionsOnce, functionNames⟩ := emits.functionNames_nodup named
  rw [Module.globalNames, declarations, List.nodup_append, List.nodup_append]
  refine ⟨⟨texts, declaredOnce, fun name isText other isDeclared same => ?_⟩, functionsOnce,
    fun name member other isFunction same => ?_⟩
  · have starts := points name isText
    rw [same, named.declared_eq other isDeclared] at starts
    exact absurd starts (by decide)
  · rcases List.mem_append.mp member with isText | isDeclared
    · exact (functionNames other isFunction).1 (same ▸ points name isText)
    · exact (functionNames other isFunction).2 (same ▸ isDeclared)

end Global

/-! ### Built modules -/

section Built

variable {signature? : Bytes → Option Signature} {options : EntryOptions} {program : Program}
  {stem : Bytes} {module : IR.Module} {start last : State}

/-- Declarations are made of the output function alone, and once. -/
theorem moves_externals {tidy : Prop} {before after : Draft}
    (moves : Moves signature? tidy before after)
    (known : before.state.externals = [] ∨ before.state.externals = [formatter]) :
    after.state.externals = [] ∨ after.state.externals = [formatter] := by
  induction moves with
  | refl => exact known
  | tail _ move ih =>
      cases move with
      | note _ _ _ _ _ externals =>
          rcases externals with same | same
          · rwa [same]
          · rw [same]
            rcases ih with none_ | one
            · exact .inr (by rw [none_]; rfl)
            · exact .inr (by rw [one]; rfl)
      | put instr count => simpa [State.put, State.emit] using ih
      | block label listed => exact ih
      | enter name owned => exact ih

theorem lowersAll_externals {state : State} {sources : List Semantics.SourceFunction}
    {functions : List IR.Function} (lowers : LowersAll signature? state sources functions last)
    (known : state.externals = [] ∨ state.externals = [formatter]) :
    last.externals = [] ∨ last.externals = [formatter] := by
  induction lowers with
  | nil => exact known
  | cons first rest ih =>
      obtain ⟨name, params, result, after, -, moves, rfl, -⟩ := first.moves
      exact ih (moves_externals moves known)

theorem lowers_params_eq {state : State} {source : Semantics.SourceFunction}
    {function : IR.Function} (lowers : Lowers signature? state source function last) :
    function.params.map Place.name = source.params := by
  obtain ⟨_, _, _, _, makes, -, rfl, -, -, params, -⟩ := lowers.makes
  rw [makes.grows.params_eq]
  exact params

/-- The names of a source function: that of a declaration, or of the function made for a file. -/
theorem source_named {source : Semantics.SourceFunction}
    (member : source ∈ Semantics.sourceFunctions options stem program) :
    (∃ declaration ∈ program.functions, source.name = declaration.name.name ∧
      source.params = declaration.params.map fun param => param.name.name) ∨
    source.name = synthesizedEntry stem ∧ source.params = [] := by
  have own : ∀ choice : FunctionDecl → Option (List Stmt),
      source ∈ program.functions.map (fun declaration =>
        Semantics.sourceFunction (choice declaration) declaration) →
      ∃ declaration ∈ program.functions, source.name = declaration.name.name ∧
        source.params = declaration.params.map fun param => param.name.name := by
    intro choice within
    obtain ⟨declaration, declared, rfl⟩ := List.mem_map.mp within
    exact ⟨declaration, declared, rfl, rfl⟩
  unfold Semantics.sourceFunctions at member
  dsimp only at member
  split at member
  · exact .inl (own _ member)
  · rcases List.mem_cons.mp member with rfl | within
    · exact .inr ⟨rfl, rfl⟩
    · exact .inl (own _ within)

variable (translates : Translates options stem program module signature? start last)
  (plain : ∀ declaration ∈ program.functions, ∀ identifier ∈ declaration.names,
    0x2E ∉ identifier.name)
include translates plain

theorem translates_named : Named module where
  names_nodup := translates.names_nodup
  names_plain := by
    intro function member
    obtain ⟨source, there, earlier, later, lowers, -⟩ := translates.lowers.origin member
    rw [lowers.name_eq]
    rcases source_named there with ⟨declaration, declared, name, -⟩ | ⟨name, -⟩
    · exact .inl (name ▸ plain declaration declared _ List.mem_cons_self)
    · exact .inr ⟨stem, name⟩
  externals := by
    rw [translates.externals_eq]
    exact lowersAll_externals translates.lowers (.inl translates.undeclared)

theorem translates_spelt : ∀ function ∈ module.functions, Spelt function := by
  intro function member
  obtain ⟨source, there, earlier, later, lowers, -⟩ := translates.lowers.origin member
  have sound := lowers.sound
  obtain ⟨_, params, _, made, start, moves, rfl, rfl⟩ := lowers.moves
  have draft := start.moves moves
  refine ⟨fun place own => ?_, sound.params_nodup, slots_nodup_of_grounded lowers.grounded,
    fun block within => ?_, sound.labels_nodup⟩
  · have named : place.name ∈ source.params := by
      rw [← lowers_params_eq lowers]
      exact List.mem_map_of_mem own
    rcases source_named there with ⟨declaration, declared, -, names⟩ | ⟨-, none_⟩
    · rw [names] at named
      obtain ⟨param, isParam, same⟩ := List.mem_map.mp named
      rw [← same]
      exact plain declaration declared _
        (List.mem_cons_of_mem _ (List.mem_map_of_mem isParam))
    · rw [none_] at named
      cases named
  · have label : block.name.label ∈ requestedLabels made.state.function.requests := by
      rw [← draft.labels]
      exact List.mem_map_of_mem within
    obtain ⟨request, asked, number, -, same⟩ := mem_requestedLabels label
    exact ⟨request, draft.requests_listed request asked, number, same⟩

end Built

/-! ### Optimized modules -/

section Optimized

variable {known : Callee → Bool}

/-- No pass makes blocks. -/
theorem named_rewriting (known : Callee → Bool) :
    Rewriting fun function other => function.Orderly known → other.Orderly known ∧
      other.blocks.map IR.Block.name ⊆ function.blocks.map IR.Block.name where
  refl _ orderly := ⟨orderly, List.Subset.refl _⟩
  trans first second orderly :=
    have middle := first orderly
    have behind := second middle.1
    ⟨behind.1, fun _ member => middle.2 (behind.2 member)⟩
  folding function orderly := by
    refine ⟨orderly.foldConstants, ?_⟩
    rw [function.names_foldConstants]
    exact List.Subset.refl _
  deadCode function orderly :=
    ⟨orderly.eliminateDeadCode, (orderly.wired.eliminateDeadCode orderly.wellFormed).1.names_subset⟩

theorem Spelt.of_rewritten {function other : IR.Function} (spelt : Spelt function)
    (head : function.SameHead other) (orderly : other.Orderly known)
    (names : other.blocks.map IR.Block.name ⊆ function.blocks.map IR.Block.name) : Spelt other where
  params_plain := by
    rw [head.params_eq]
    exact spelt.params_plain
  params_nodup := by
    rw [head.params_eq]
    exact spelt.params_nodup
  slots_nodup := slots_nodup_of_grounded orderly.grounded
  labels_listed := by
    intro block member
    obtain ⟨original, within, same⟩ := List.mem_map.mp (names (List.mem_map_of_mem member))
    rw [← same]
    exact spelt.labels_listed original within
  labels_nodup := by
    refine List.pairwise_map.mpr ((List.pairwise_map.mp orderly.wired.unique).imp_of_mem ?_)
    intro first second own other differ same
    refine differ (congrArg BlockName.id ?_)
    obtain ⟨original, within, isFirst⟩ := List.mem_map.mp (names (List.mem_map_of_mem own))
    obtain ⟨original', within', isSecond⟩ := List.mem_map.mp (names (List.mem_map_of_mem other))
    rw [← isFirst, ← isSecond] at same ⊢
    exact congrArg IR.Block.name (List.inj_on_of_nodup_map spelt.labels_nodup within within' same)

theorem Named.optimize {module : IR.Module} (named : Named module) (optimizer : Optimizer) :
    Named (optimizer.optimize module).1 := by
  have heads := sameHead_rewriting.optimize optimizer module
  have names : (optimizer.optimize module).1.functions.map IR.Function.name =
      module.functions.map IR.Function.name :=
        map_eq_of_forall₂ _ heads fun _ _ head => head.name_eq
  refine ⟨names ▸ named.names_nodup, fun function member => ?_, named.externals⟩
  obtain ⟨original, within, head⟩ := exists_of_forall₂ heads member
  rw [head.name_eq]
  exact named.names_plain original within

theorem spelt_optimize {module : IR.Module} (optimizer : Optimizer)
    (orderly : ∀ function ∈ module.functions, function.Orderly known)
    (spelt : ∀ function ∈ module.functions, Spelt function) :
    ∀ function ∈ (optimizer.optimize module).1.functions, Spelt function := by
  intro function member
  have both := List.Forall₂.mp (fun _ _ => And.intro) (sameHead_rewriting.optimize optimizer module)
    ((named_rewriting known).optimize optimizer module)
  obtain ⟨original, within, head, keeps⟩ := exists_of_forall₂ both member
  obtain ⟨behind, names⟩ := keeps (orderly original within)
  exact (spelt original within).of_rewritten head behind names

end Optimized

/-- **The names in generated code clash in one case only.**  Names of functions and string constants
never do, and those of parameters, slots and blocks of a function do exactly if a parameter is named
for the slot of a variable `arg`. -/
theorem generate_names {file : SourceFile} {tokens : List Token} {program : Program}
    {entry : EntryOptions} {built : Built} (parsed : file.parse = .ok (tokens, program))
    (run : build entry file program = .ok built) (verified : built.module.violations = [])
    (optimizer : Optimizer) (options : Options) :
    ∀ module ∈ [built.module, (optimizer.optimize built.module).1], ∀ generated,
      generate options module = .ok generated →
        generated.globalNames.Nodup ∧ ∃ codes wrapper, generated.functions = codes ++ wrapper ∧
          List.Forall₂ (fun source code => code.localNames.Nodup ↔ ¬ Overlaps source)
            module.functions codes ∧
          ∀ code ∈ wrapper, code.localNames.Nodup := by
  obtain ⟨-, read⟩ := SourceFile.ofTokens_of_parse parsed
  obtain ⟨signature?, opened, last, translates⟩ :=
    build_translates (Program.written_of_ofTokens read) run
  have plain := SourceFile.point_notMem parsed
  have named := translates_named translates plain
  have spelt := translates_spelt translates plain
  have orderly := translates.orderly verified
  have each : ∀ module ∈ [built.module, (optimizer.optimize built.module).1],
      Named module ∧ ∀ function ∈ module.functions, Spelt function := by
    intro module listed
    simp only [List.mem_cons, List.not_mem_nil, or_false] at listed
    rcases listed with rfl | rfl
    · exact ⟨named, spelt⟩
    · exact ⟨named.optimize optimizer, spelt_optimize optimizer orderly spelt⟩
  intro module listed generated made
  obtain ⟨named, spelt⟩ := each module listed
  obtain ⟨codes, emits⟩ := generate_emits made
  refine ⟨emits.globalNames_nodup named, codes, ?_⟩
  have clashes :
    List.Forall₂ (fun source (code : Function) => code.localNames.Nodup ↔ ¬ Overlaps source)
      module.functions codes := by
    refine forall₂_imp_mem emits.functions fun source own code emitted => ?_
    rw [emitted.localNames_eq]
    exact (spelt source own).nodup_iff
  rcases emits.wrapped with ⟨-, same⟩ | ⟨-, function, -, same⟩
  · exact ⟨[], by rw [same, List.append_nil], clashes, by simp⟩
  · refine ⟨_, same, clashes, fun code member => ?_⟩
    obtain rfl := List.mem_singleton.mp member
    exact List.nodup_singleton _

/-- A file that is read and built, with a test of what comes out. -/
theorem exists_compiled (file : SourceFile) (entry : EntryOptions) (test : Built → Bool)
    (check :
      (file.parse.toOption.bind fun read => (build entry file read.2).toOption).any test = true) :
    ∃ tokens program built, file.parse = .ok (tokens, program) ∧
      build entry file program = .ok built ∧ test built = true := by
  cases parsed : file.parse with
  | error reason => simp [parsed, Except.toOption] at check
  | ok read =>
      cases run : build entry file read.2 with
      | error reason => simp [parsed, run, Except.toOption] at check
      | ok built =>
          exact ⟨read.1, read.2, built, rfl, run, by
            simpa [parsed, run, Except.toOption] using check⟩

/-- A file with a parameter that is named for the slot of a variable. -/
def overlapFile : SourceFile := ⟨"test.tss", "func f(addr3 int) \x7b var arg = 1; \x7d"⟩

theorem generate_names_overlap : ∃ tokens program built generated,
    overlapFile.parse = .ok (tokens, program) ∧ build {} overlapFile program = .ok built ∧
      built.module.violations = [] ∧ generate {} built.module = .ok generated ∧
      generated.globalNames.Nodup ∧ ∃ code ∈ generated.functions, ¬ code.localNames.Nodup := by
  obtain ⟨tokens, program, built, parsed, run, check⟩ := exists_compiled overlapFile {}
    (fun built => built.module.violations.isEmpty &&
      (generate {} built.module).toOption.isSome &&
      built.module.functions.any fun function => function.params.any fun param =>
        (slots function).any fun slot =>
          slot.name == Bytes.ofString "arg" && param.name == "addr" ++ Bytes.ofNat slot.id)
    (by
      simp only [overlapFile, Bytes.ofString_eq]
      decide +kernel)
  simp only [Bool.and_eq_true, List.isEmpty_iff, List.any_eq_true, beq_iff_eq] at check
  obtain ⟨⟨verified, made⟩, source, own, overlap⟩ := check
  cases run' : generate {} built.module with
  | error stop => simp [run', Except.toOption] at made
  | ok generated =>
      obtain ⟨global, codes, wrapper, functions, clashes, -⟩ :=
        generate_names parsed run verified (Optimizer.ofLevel 0) {} _ List.mem_cons_self
          generated run'
      refine ⟨tokens, program, built, generated, parsed, run, verified, run', global, ?_⟩
      obtain ⟨code, member, clash⟩ := exists_of_forall₂ clashes.flip own
      refine ⟨code, functions ▸ List.mem_append_left _ member, fun nodup => clash.mp nodup ?_⟩
      exact overlap

end ScriptCompiler.LLVM
