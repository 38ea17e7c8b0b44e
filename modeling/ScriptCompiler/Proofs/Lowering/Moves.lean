import Mathlib.Data.List.Infix
import Mathlib.Logic.Relation
import ScriptCompiler.Proofs.IR.Soundness
import ScriptCompiler.Proofs.IR.Verification
import ScriptCompiler.Proofs.Lowering.Inversion

/-!
# The moves of lowering

Whatever lowering does to a function is one of four moves: it takes notes that leave the code alone,
puts an instruction at the end of the current block, makes a block, or turns to another block.  A
draft is a state of lowering with a certificate for its blocks; the conditions of a move say what an
instruction may be when it is put.  Moves are tidy if instructions are put into open blocks only.

A draft stays sound under every move (`Draft.Sound.move`), and tidy moves leave no terminator before
the end of a block (`State.Shaped.move`).
-/

namespace ScriptCompiler.Lowering

open IR

/-- The labels that lowering asks for. -/
def blockLabels : List Bytes :=
  ["entry", "dead", "if.then", "if.else", "if.end", "loop.cond", "loop.body", "loop.post",
    "loop.end",
    "and.rhs", "and.end", "or.rhs", "or.end"]

namespace State

/-- The state with edges from the current block. -/
def connectAll (state : State) (targets : List BlockName) : State :=
  targets.foldl State.connect state

/-- The state with an instruction at the end of the current block, the edges that belong to it and
some numbers of values taken before. -/
def put (state : State) (instr : Instr) (count : Nat) : State :=
  ({ state with
      function := { state.function with nextValue := state.function.nextValue + count } }.emit
    instr).connectAll instr.targets

section ConnectAll

variable (state : State) (targets : List BlockName)

/-- Edges change nothing but the lists of neighbours. -/
theorem connectAll_eq : ∃ blocks, state.connectAll targets =
    { state with function := { state.function with blocks := blocks } } := by
  induction targets generalizing state with
  | nil => exact ⟨_, rfl⟩
  | cons target rest ih =>
      obtain ⟨blocks, same⟩ := ih (state.connect target)
      obtain ⟨between, first⟩ := state.function.addEdge_eq state.current target
      refine ⟨blocks, ?_⟩
      rw [connectAll, List.foldl_cons, ← connectAll, same]
      simp only [State.connect, first]

@[simp]
theorem connectAll_code (id : Nat) :
    (state.connectAll targets).function.code id = state.function.code id := by
  induction targets generalizing state with
  | nil => rfl
  | cons target rest ih => exact (ih (state.connect target)).trans Function.code_addEdge

@[simp]
theorem connectAll_instrs : (state.connectAll targets).function.instrs = state.function.instrs := by
  induction targets generalizing state with
  | nil => rfl
  | cons target rest ih => exact (ih (state.connect target)).trans Function.instrs_addEdge

@[simp]
theorem connectAll_current : (state.connectAll targets).current = state.current := by
  obtain ⟨blocks, same⟩ := state.connectAll_eq targets
  rw [same]

@[simp]
theorem connectAll_strings : (state.connectAll targets).strings = state.strings := by
  obtain ⟨blocks, same⟩ := state.connectAll_eq targets
  rw [same]

@[simp]
theorem connectAll_externals : (state.connectAll targets).externals = state.externals := by
  obtain ⟨blocks, same⟩ := state.connectAll_eq targets
  rw [same]

@[simp]
theorem connectAll_table : (state.connectAll targets).table = state.table := by
  obtain ⟨blocks, same⟩ := state.connectAll_eq targets
  rw [same]

@[simp]
theorem connectAll_slots : (state.connectAll targets).slots = state.slots := by
  obtain ⟨blocks, same⟩ := state.connectAll_eq targets
  rw [same]

@[simp]
theorem connectAll_nextBlock :
    (state.connectAll targets).function.nextBlock = state.function.nextBlock := by
  obtain ⟨blocks, same⟩ := state.connectAll_eq targets
  rw [same]

@[simp]
theorem connectAll_nextValue :
    (state.connectAll targets).function.nextValue = state.function.nextValue := by
  obtain ⟨blocks, same⟩ := state.connectAll_eq targets
  rw [same]

@[simp]
theorem connectAll_params : (state.connectAll targets).function.params = state.function.params := by
  obtain ⟨blocks, same⟩ := state.connectAll_eq targets
  rw [same]

@[simp]
theorem connectAll_result : (state.connectAll targets).function.result = state.function.result := by
  obtain ⟨blocks, same⟩ := state.connectAll_eq targets
  rw [same]

@[simp]
theorem connectAll_name : (state.connectAll targets).function.name = state.function.name := by
  obtain ⟨blocks, same⟩ := state.connectAll_eq targets
  rw [same]

@[simp]
theorem connectAll_requests :
    (state.connectAll targets).function.requests = state.function.requests := by
  obtain ⟨blocks, same⟩ := state.connectAll_eq targets
  rw [same]

theorem connectAll_numbered (numbered : state.function.Numbered) :
    (state.connectAll targets).function.Numbered := by
  induction targets generalizing state with
  | nil => exact numbered
  | cons target rest ih => exact ih (state.connect target) numbered.addEdge

theorem connectAll_labels :
    ((state.connectAll targets).function.blocks.map fun block => block.name.label) =
      state.function.blocks.map fun block => block.name.label := by
  induction targets generalizing state with
  | nil => rfl
  | cons target rest ih =>
      exact (ih (state.connect target)).trans
        (Function.map_blocks_addEdge _ _ _ _ fun _ _ _ => rfl)

/-- What edges change about a block. -/
theorem connectAll_block? {id : Nat} {block : Block}
    (found : state.function.block? id = some block) :
    ∃ successors predecessors,
      (state.connectAll targets).function.block? id =
        some { block with successors := successors, predecessors := predecessors } ∧
      (∀ name ∈ block.successors, name ∈ successors) ∧
      (id = state.current.id → ∀ target ∈ targets, ∃ name ∈ successors, name.id = target.id) ∧
      ((∀ target ∈ targets, target.id ≠ id) → predecessors = block.predecessors) := by
  induction targets generalizing state block with
  | nil =>
      exact ⟨block.successors, block.predecessors, found, fun _ member => member, by simp, by simp⟩
  | cons target rest ih =>
      obtain ⟨change, changed⟩ := state.function.block?_addEdge state.current target id
      rw [found, Option.map_some] at changed
      obtain ⟨successors, predecessors, finally_, keeps, reaches, same⟩ :=
        ih (state.connect target) changed
      refine ⟨successors, predecessors, finally_, fun name member => keeps name ?_, ?_, ?_⟩
      · split
        · unfold Function.withEdge
          split
          · exact member
          · exact List.mem_append_left _ member
        · exact member
      · rintro here other (_ | ⟨_, later⟩)
        · by_cases there : block.successors.any fun name => name.id == target.id
          · obtain ⟨name, member, equal⟩ := List.any_eq_true.mp there
            refine ⟨name, keeps name ?_, by simpa using equal⟩
            simp [here, Function.withEdge, there, member]
          · refine ⟨target, keeps target ?_, rfl⟩
            simp [here, Function.withEdge, there]
        · exact reaches here other later
      · intro avoid
        rw [same fun other member => avoid other (List.mem_cons_of_mem _ member)]
        exact if_neg fun equal => avoid target List.mem_cons_self equal.symm

end ConnectAll

end State

/-- A state of lowering with a certificate: what is supplied at the beginning of each block. -/
structure Draft where
  /-- The state. -/
  state : State
  /-- The certificate. -/
  known : Nat → Set Supply

/-- What is supplied at the end of the current block. -/
def Draft.held (draft : Draft) : Set Supply :=
  supplied (draft.known draft.state.current.id) (draft.state.function.code draft.state.current.id)

/-- What the function of a draft may refer to, given the functions that can be called. -/
def State.interface (signature? : Bytes → Option Signature) (state : State) : Interface :=
  ⟨state.strings.length, signature?⟩

variable {signature? : Bytes → Option Signature} {tidy : Prop}

theorem mem_declareExternal {externals : List External} {external declared : External}
    (member : external ∈ externals) : external ∈ declareExternal externals declared := by
  unfold declareExternal
  split
  · exact member
  · exact List.mem_append_left _ member

theorem declareExternal_subset {externals : List External} {external declared : External}
    (member : external ∈ declareExternal externals declared) :
    external ∈ externals ∨ external = declared := by
  unfold declareExternal at member
  split at member
  · exact .inl member
  · simpa using member

/-- One move of lowering, given the functions that can be called. -/
inductive Move (signature? : Bytes → Option Signature) (tidy : Prop) : Draft → Draft → Prop where
  /-- Notes are taken that leave the code alone. -/
  | note {draft : Draft} {after : State} (number : Nat)
      (more : draft.state.function.nextValue ≤ number)
      (function : after.function = { draft.state.function with nextValue := number })
      (current : after.current = draft.state.current)
      (strings : draft.state.strings <+: after.strings)
      (externals : after.externals = draft.state.externals ∨
        after.externals = declareExternal draft.state.externals formatter) :
      Move signature? tidy draft ⟨after, draft.known⟩
  /-- An instruction that copies nothing is put at the end of the current block. -/
  | put {draft : Draft} (instr : Instr) (count : Nat)
      (takes : tidy → draft.state.isOpen = true)
      (typed : instr.Typed draft.state.function (draft.state.interface signature?))
      (demands : ∀ supply ∈ instr.demands, supply ∈ draft.held)
      (targets : ∀ target ∈ instr.targets, target.id < draft.state.function.nextBlock ∧
        target.id ≠ Function.entry ∧ draft.known target.id ⊆ draft.held)
      (result : ∀ value, instr.result? = some value →
        value.id? = some draft.state.nextId ∧ count = 1)
      (external : ∀ callee ∈ instr.callee?, callee.linkage = .external →
        formatter ∈ draft.state.externals)
      (plain : ∀ dest value, instr ≠ .copy dest value := by simp) :
      Move signature? tidy draft ⟨draft.state.put instr count, draft.known⟩
  /-- A block is made. -/
  | block {draft : Draft} (label : Bytes) (listed : label ∈ blockLabels) :
      Move signature? tidy draft
        ⟨draft.state.addBlock label,
          Function.update draft.known draft.state.function.nextBlock draft.held⟩
  /-- Another block becomes the current one. -/
  | enter {draft : Draft} (name : BlockName) (owned : name.id < draft.state.function.nextBlock) :
      Move signature? tidy draft ⟨draft.state.enter name, draft.known⟩

/-- Moves one after the other. -/
def Moves (signature? : Bytes → Option Signature) (tidy : Prop) : Draft → Draft → Prop :=
  Relation.ReflTransGen (Move signature? tidy)

theorem Move.mono {tidy' : Prop} (weaker : tidy' → tidy) {before after : Draft}
    (move : Move signature? tidy before after) : Move signature? tidy' before after := by
  cases move with
  | note number more function current strings externals =>
      exact .note number more function current strings externals
  | put instr count takes typed demands targets result external plain =>
      exact .put instr count (fun holds => takes (weaker holds)) typed demands targets
        result external plain
  | block label listed => exact .block label listed
  | enter name owned => exact .enter name owned

theorem Moves.mono {tidy' : Prop} (weaker : tidy' → tidy) {before after : Draft}
    (moves : Moves signature? tidy before after) : Moves signature? tidy' before after :=
  Relation.ReflTransGen.mono (fun _ _ => Move.mono weaker) _ _ moves

/-- What grows in the course of lowering a function, and what stays. -/
structure State.Grows (before after : State) : Prop where
  /-- The name stays. -/
  name_eq : after.function.name = before.function.name
  /-- The parameters stay. -/
  params_eq : after.function.params = before.function.params
  /-- The type of the result stays. -/
  result_eq : after.function.result = before.function.result
  /-- Blocks are added. -/
  nextBlock_le : before.function.nextBlock ≤ after.function.nextBlock
  /-- Numbers of values are taken. -/
  nextId_le : before.nextId ≤ after.nextId
  /-- Blocks grow at their ends. -/
  code_extends : ∀ id, before.function.code id <+: after.function.code id
  /-- String constants are added at the end. -/
  strings_extend : before.strings <+: after.strings
  /-- Declarations are added. -/
  externals_subset : ∀ external ∈ before.externals, external ∈ after.externals
  /-- Blocks stay numbered. -/
  numbered : before.function.Numbered → after.function.Numbered

namespace State.Grows

theorem refl (state : State) : state.Grows state :=
  ⟨rfl, rfl, rfl, Nat.le_refl _, Nat.le_refl _, fun _ => List.prefix_rfl, List.prefix_rfl,
    fun _ member => member, fun numbered => numbered⟩

theorem trans {first second third : State} (left : first.Grows second)
    (right : second.Grows third) :
    first.Grows third where
  name_eq := right.name_eq.trans left.name_eq
  params_eq := right.params_eq.trans left.params_eq
  result_eq := right.result_eq.trans left.result_eq
  nextBlock_le := left.nextBlock_le.trans right.nextBlock_le
  nextId_le := left.nextId_le.trans right.nextId_le
  code_extends := fun id => (left.code_extends id).trans (right.code_extends id)
  strings_extend := left.strings_extend.trans right.strings_extend
  externals_subset := fun external member =>
    right.externals_subset external (left.externals_subset external member)
  numbered := fun numbered => right.numbered (left.numbered numbered)

/-- Instructions stay. -/
theorem instrs_subset {before after : State} (grows : before.Grows after)
    (numbered : before.function.Numbered) {instr : Instr}
    (member : instr ∈ before.function.instrs) :
    instr ∈ after.function.instrs := by
  obtain ⟨id, within⟩ := numbered.mem_instrs.mp member
  exact (grows.numbered numbered).mem_instrs.mpr ⟨id, (grows.code_extends id).subset within⟩

/-- What instructions define stays defined. -/
theorem results_subset {before after : State} (grows : before.Grows after)
    (numbered : before.function.Numbered) {value : Value}
    (member : value ∈ before.function.results) : value ∈ after.function.results := by
  obtain ⟨instr, within, isResult⟩ := List.mem_filterMap.mp member
  exact List.mem_filterMap.mpr ⟨instr, grows.instrs_subset numbered within, isResult⟩

end State.Grows

section Put

variable {state : State} {instr : Instr} {count : Nat}

theorem State.code_put_self (owned : (state.function.block? state.current.id).isSome) :
    (state.put instr count).function.code state.current.id =
      state.function.code state.current.id ++ [instr] := by
  rw [State.put, State.connectAll_code]
  exact Function.code_append owned

theorem State.code_put_of_ne {id : Nat} (differ : id ≠ state.current.id) :
    (state.put instr count).function.code id = state.function.code id := by
  rw [State.put, State.connectAll_code]
  exact Function.code_append_of_ne differ

theorem State.nextBlock_put :
    (state.put instr count).function.nextBlock = state.function.nextBlock := by
  simp [State.put, State.emit, Function.append, Function.modify]

theorem State.instrs_put_perm (instr : Instr) (count : Nat) (numbered : state.function.Numbered)
    (owned : (state.function.block? state.current.id).isSome) :
    (state.put instr count).function.instrs.Perm (instr :: state.function.instrs) := by
  rw [State.put, State.connectAll_instrs]
  exact Function.instrs_append_perm { state.function with
    nextValue := state.function.nextValue + count } numbered.nodup owned

theorem State.results_put_perm (instr : Instr) (count : Nat) (numbered : state.function.Numbered)
    (owned : (state.function.block? state.current.id).isSome) :
    (state.put instr count).function.results.Perm
      (instr.result?.toList ++ state.function.results) := by
  refine ((State.instrs_put_perm instr count numbered owned).filterMap _).trans ?_
  cases found : instr.result? with
  | none => simp [Function.results, List.filterMap_cons_none found]
  | some value => simp [Function.results, List.filterMap_cons_some found]

/-- What putting an instruction changes about a block. -/
theorem State.block?_put (instr : Instr) (count : Nat) {id : Nat} {block : Block}
    (found : state.function.block? id = some block) :
    ∃ successors predecessors,
      (state.put instr count).function.block? id =
        some { block with
          instrs := if id = state.current.id then block.instrs ++ [instr] else block.instrs
          successors := successors
          predecessors := predecessors } ∧
      (∀ name ∈ block.successors, name ∈ successors) ∧
      (id = state.current.id → ∀ target ∈ instr.targets, ∃ name ∈ successors, name.id = target.id) ∧
      ((∀ target ∈ instr.targets, target.id ≠ id) → predecessors = block.predecessors) := by
  have appended : ({ state with function := { state.function with
      nextValue := state.function.nextValue + count } }.emit instr).function.block? id =
      some { block with
        instrs := if id = state.current.id then block.instrs ++ [instr] else block.instrs } := by
    refine Function.block?_append.trans ?_
    rw [show Function.block? { state.function with nextValue := state.function.nextValue +
      count } id = some block from found, Option.map_some]
    split <;> rfl
  exact State.connectAll_block? _ _ appended

theorem State.numbered_put (numbered : state.function.Numbered) :
    (state.put instr count).function.Numbered := by
  have counted : Function.Numbered { state.function with
      nextValue := state.function.nextValue + count } := numbered
  exact State.connectAll_numbered _ _ counted.append

/-- Putting an instruction only adds to what is there. -/
theorem State.grows_put (instr : Instr) (count : Nat) : state.Grows (state.put instr count) := by
  refine ⟨?_, ?_, ?_, ?_, ?_, fun id => ?_, ?_, ?_, State.numbered_put⟩
  · simp [State.put, State.emit, Function.append, Function.modify]
  · simp [State.put, State.emit, Function.append, Function.modify]
  · simp [State.put, State.emit, Function.append, Function.modify]
  · simp [State.put, State.emit, Function.append, Function.modify]
  · simp [State.put, State.emit, Function.append, Function.modify, State.nextId]
  · by_cases here : id = state.current.id
    · subst here
      by_cases owned : (state.function.block? state.current.id).isSome
      · rw [State.code_put_self owned]
        exact List.prefix_append _ _
      · rw [Function.code, Option.not_isSome_iff_eq_none.mp owned]
        exact List.nil_prefix
    · rw [State.code_put_of_ne here]
  · simp [State.put, State.emit]
  · simp [State.put, State.emit]

theorem State.grows_enter (name : BlockName) : state.Grows (state.enter name) :=
  ⟨rfl, rfl, rfl, Nat.le_refl _, Nat.le_refl _, fun _ => List.prefix_rfl, List.prefix_rfl,
    fun _ member => member, fun numbered => numbered⟩

end Put

theorem Move.grows {before after : Draft} (move : Move signature? tidy before after) :
    before.state.Grows after.state := by
  cases move with
  | note number more function current strings externals =>
      refine ⟨?_, ?_, ?_, ?_, ?_, fun id => ?_, strings, ?_, ?_⟩
      case refine_7 =>
        intro external member
        rcases externals with same | declared
        · exact same ▸ member
        · exact declared ▸ mem_declareExternal member
      all_goals simp only [State.nextId, function]
      · exact Nat.le_refl _
      · exact more
      · exact List.prefix_rfl
      · exact fun numbered => numbered
  | put instr count takes typed demands targets result external =>
      exact State.grows_put _ _
  | block label listed =>
      refine ⟨rfl, rfl, rfl, Nat.le_succ _, Nat.le_refl _, fun id => ?_, List.prefix_rfl,
        fun _ member => member, Function.Numbered.newBlock⟩
      rw [State.addBlock, Function.code_newBlock]
  | enter name owned => exact State.grows_enter name

theorem Moves.grows {before after : Draft} (moves : Moves signature? tidy before after) :
    before.state.Grows after.state := by
  induction moves with
  | refl => exact State.Grows.refl _
  | tail _ move ih => exact ih.trans move.grows

/-- The label of a request, given the number of earlier requests for the same label. -/
def numberedLabel (label : Bytes) : Nat → Bytes
  | 0 => label
  | earlier + 1 => label ++ "." ++ Bytes.ofNat (earlier + 1)

/-- The labels of the blocks that requests have led to, the last request first. -/
def requestedLabels : List Bytes → List Bytes
  | [] => []
  | label :: earlier => requestedLabels earlier ++ [numberedLabel label (earlier.count label)]

/-- What the code of a draft keeps to. -/
structure Draft.Sound (signature? : Bytes → Option Signature) (draft : Draft) : Prop where
  /-- Blocks are numbered. -/
  numbered : draft.state.function.Numbered
  /-- The current block is one of them. -/
  current_lt : draft.state.current.id < draft.state.function.nextBlock
  /-- The labels are those asked for. -/
  labels : (draft.state.function.blocks.map fun block => block.name.label) =
    requestedLabels draft.state.function.requests
  /-- Only listed labels are asked for. -/
  requests_listed : ∀ label ∈ draft.state.function.requests, label ∈ blockLabels
  /-- The parameters have the first numbers. -/
  params_id : ∀ (index : Nat) (place : Place),
    draft.state.function.params[index]? = some place → place.id = index
  /-- The numbers of the parameters are taken. -/
  params_le : draft.state.function.params.length ≤ draft.state.nextId
  /-- Every number is defined once. -/
  results_nodup : (draft.state.function.results.filterMap Value.id?).Nodup
  /-- Only numbers that are taken and belong to no parameter are defined. -/
  results_range : ∀ value ∈ draft.state.function.results, ∀ id ∈ value.id?,
    draft.state.function.params.length ≤ id ∧ id < draft.state.nextId
  /-- Operands have the right types. -/
  typed : ∀ instr ∈ draft.state.function.instrs,
    instr.Typed draft.state.function (draft.state.interface signature?)
  /-- At the entry nothing is supplied. -/
  start : draft.known Function.entry = ∅
  /-- What instructions ask for has been supplied. -/
  covered : ∀ id, Covered draft.known (draft.known id) (draft.state.function.code id)
  /-- Jumps go along edges to blocks other than the entry. -/
  targets : ∀ id block, draft.state.function.block? id = some block →
    ∀ instr ∈ block.instrs, ∀ target ∈ instr.targets,
      target.id < draft.state.function.nextBlock ∧ target.id ≠ Function.entry ∧
        ∃ name ∈ block.successors, name.id = target.id
  /-- No edge leads to the entry. -/
  predecessors : ∀ block, draft.state.function.block? Function.entry = some block →
    block.predecessors = []
  /-- The output function is declared if it is called. -/
  externals : ∀ instr ∈ draft.state.function.instrs, ∀ callee ∈ instr.callee?,
    callee.linkage = .external → formatter ∈ draft.state.externals
  /-- Nothing else is declared. -/
  declared : ∀ external ∈ draft.state.externals, external = formatter

namespace Draft.Sound

variable {draft after : Draft}

theorem entry_ne (sound : draft.Sound signature?) :
    Function.entry ≠ draft.state.function.nextBlock :=
  Nat.ne_of_lt (Nat.lt_of_le_of_lt (Nat.zero_le _) sound.current_lt)

theorem owned (sound : draft.Sound signature?) :
    (draft.state.function.block? draft.state.current.id).isSome :=
  sound.numbered.block?_isSome.mpr sound.current_lt

/-- Targets of code are blocks that are there. -/
theorem target_lt (sound : draft.Sound signature?) {id : Nat} {instr : Instr}
    (within : instr ∈ draft.state.function.code id) {target : BlockName}
    (aims : target ∈ instr.targets) : target.id < draft.state.function.nextBlock := by
  cases found : draft.state.function.block? id with
  | none => simp [Function.code, found] at within
  | some block =>
      rw [Function.code_eq found] at within
      exact (sound.targets id block found instr within target aims).1

theorem note {state : State} (sound : draft.Sound signature?) (number : Nat)
    (more : draft.state.function.nextValue ≤ number)
    (function : state.function = { draft.state.function with nextValue := number })
    (current : state.current = draft.state.current)
    (strings : draft.state.strings <+: state.strings)
    (externals : state.externals = draft.state.externals ∨
      state.externals = declareExternal draft.state.externals formatter) :
    Draft.Sound signature? ⟨state, draft.known⟩ where
  numbered := by
    simp only [function]
    exact sound.numbered
  current_lt := by
    simp only [function, current]
    exact sound.current_lt
  labels := by
    simp only [function]
    exact sound.labels
  requests_listed := by
    simp only [function]
    exact sound.requests_listed
  params_id := by
    simp only [function]
    exact sound.params_id
  params_le := by
    simp only [State.nextId, function]
    exact sound.params_le.trans more
  results_nodup := by
    simp only [function]
    exact sound.results_nodup
  results_range := by
    intro value member id isId
    simp only [State.nextId, function] at member ⊢
    obtain ⟨least, most⟩ := sound.results_range value member id isId
    exact ⟨least, Nat.lt_of_lt_of_le most more⟩
  typed := by
    intro instr member
    simp only [function] at member ⊢
    exact (sound.typed instr member).mono (by rfl) (by rfl) (fun _ within => within)
      strings.length_le (by exact fun _ _ known => known)
  start := sound.start
  covered := by
    simp only [function]
    exact sound.covered
  targets := by
    simp only [function]
    exact sound.targets
  predecessors := by
    simp only [function]
    exact sound.predecessors
  externals := by
    intro instr member callee isCallee linkage
    simp only [function] at member
    have known := sound.externals instr member callee isCallee linkage
    rcases externals with same | declared
    · exact same ▸ known
    · exact declared ▸ mem_declareExternal known
  declared := by
    intro external member
    rcases externals with same | declared
    · exact sound.declared external (same ▸ member)
    · rw [declared] at member
      exact (declareExternal_subset member).elim (sound.declared external) fun same => same

theorem enter (sound : draft.Sound signature?) {name : BlockName}
    (below : name.id < draft.state.function.nextBlock) :
    Draft.Sound signature? ⟨draft.state.enter name, draft.known⟩ :=
  { sound with current_lt := below }

theorem block (sound : draft.Sound signature?) {label : Bytes} (listed : label ∈ blockLabels) :
    Draft.Sound signature? ⟨draft.state.addBlock label,
      Function.update draft.known draft.state.function.nextBlock draft.held⟩ where
  numbered := sound.numbered.newBlock
  current_lt := Nat.lt_succ_of_lt sound.current_lt
  labels := by
    rw [State.addBlock, Function.newBlock, List.map_append, sound.labels]
    rfl
  requests_listed := by
    rintro request (_ | ⟨_, earlier⟩)
    · exact listed
    · exact sound.requests_listed request earlier
  params_id := sound.params_id
  params_le := sound.params_le
  results_nodup := by
    simp only [State.addBlock, Function.results, Function.instrs_newBlock]
    exact sound.results_nodup
  results_range := by
    simp only [State.addBlock, Function.results, Function.instrs_newBlock]
    exact sound.results_range
  typed := by
    intro instr member
    simp only [State.addBlock, Function.instrs_newBlock] at member
    refine (sound.typed instr member).mono (by rfl) (by rfl) (fun value within => ?_) (by rfl)
      (by exact fun _ _ known => known)
    simpa only [State.addBlock, Function.results, Function.instrs_newBlock] using within
  start := by
    dsimp only
    rw [Function.update_of_ne sound.entry_ne]
    exact sound.start
  covered := by
    intro id
    simp only [State.addBlock, Function.code_newBlock]
    by_cases new : id = draft.state.function.nextBlock
    · rw [sound.numbered.code_of_le (Nat.le_of_eq new.symm)]
      trivial
    · rw [Function.update_of_ne new]
      refine (sound.covered id).congr fun instr within target aims => ?_
      exact Function.update_of_ne (Nat.ne_of_lt (sound.target_lt within aims)) _ _
  targets := by
    intro id block found instr within target aims
    simp only [State.addBlock, Function.block?_newBlock sound.numbered] at found
    split at found
    · cases found
      cases within
    · obtain ⟨below, notEntry, edge⟩ := sound.targets id block found instr within target aims
      exact ⟨Nat.lt_succ_of_lt below, notEntry, edge⟩
  predecessors := by
    intro block found
    simp only [State.addBlock, Function.block?_newBlock sound.numbered] at found
    rw [if_neg sound.entry_ne] at found
    exact sound.predecessors block found
  externals := by
    simp only [State.addBlock, Function.instrs_newBlock]
    exact sound.externals
  declared := sound.declared

section Put

variable {instr : Instr} {count : Nat}

/-- With a result that takes the next number, every number is still defined once. -/
theorem results_nodup_put (sound : draft.Sound signature?)
    (result : ∀ value, instr.result? = some value → value.id? = some draft.state.nextId) :
    ((draft.state.put instr count).function.results.filterMap Value.id?).Nodup := by
  have results := State.results_put_perm instr count sound.numbered sound.owned
  refine (results.filterMap Value.id?).nodup_iff.mpr ?_
  cases isResult : instr.result? with
  | none => simpa using sound.results_nodup
  | some value =>
      have isId := result value isResult
      simp only [Option.toList_some, List.singleton_append, List.filterMap_cons_some isId,
        List.nodup_cons, List.mem_filterMap, not_exists, not_and]
      refine ⟨fun other member otherId => ?_, sound.results_nodup⟩
      exact Nat.lt_irrefl _ (sound.results_range other member _ otherId).2

/-- With a result that takes the next number, only taken numbers are defined. -/
theorem results_range_put (sound : draft.Sound signature?)
    (result : ∀ value, instr.result? = some value →
      value.id? = some draft.state.nextId ∧ count = 1)
    (least : draft.state.nextId ≤ (draft.state.put instr count).nextId) :
    ∀ value ∈ (draft.state.put instr count).function.results, ∀ id ∈ value.id?,
      draft.state.function.params.length ≤ id ∧ id < (draft.state.put instr count).nextId := by
  intro value member id isId
  have results := State.results_put_perm instr count sound.numbered sound.owned
  rcases List.mem_append.mp (results.mem_iff.mp member) with new | old
  · obtain ⟨newId, rfl⟩ := result value (Option.mem_toList.mp new)
    obtain rfl : draft.state.nextId = id := Option.some.inj (newId.symm.trans isId)
    have nextId : (draft.state.put instr 1).nextId = draft.state.nextId + 1 := by
      simp [State.put, State.emit, Function.append, Function.modify, State.nextId]
    rw [nextId]
    exact ⟨sound.params_le, Nat.lt_succ_self _⟩
  · obtain ⟨atLeast, below⟩ := sound.results_range value old id isId
    exact ⟨atLeast, Nat.lt_of_lt_of_le below least⟩

/-- Jumps still go along edges to blocks other than the entry when one more is put. -/
theorem targets_put (sound : draft.Sound signature?)
    (targets : ∀ target ∈ instr.targets, target.id < draft.state.function.nextBlock ∧
      target.id ≠ Function.entry) {id : Nat} {old block : Block}
    (oldFound : draft.state.function.block? id = some old)
    (found : (draft.state.put instr count).function.block? id = some block) {other : Instr}
    (within : other ∈ block.instrs) {target : BlockName} (aims : target ∈ other.targets) :
    target.id < draft.state.function.nextBlock ∧ target.id ≠ Function.entry ∧
      ∃ name ∈ block.successors, name.id = target.id := by
  obtain ⟨successors, predecessors, newFound, keeps, reaches, -⟩ :=
    State.block?_put instr count oldFound
  obtain rfl := Option.some.inj (found.symm.trans newFound)
  have before : other ∈ old.instrs → target.id < draft.state.function.nextBlock ∧
      target.id ≠ Function.entry ∧ ∃ name ∈ successors, name.id = target.id := by
    intro stood
    obtain ⟨below, notEntry, name, member, same⟩ :=
      sound.targets id old oldFound other stood target aims
    exact ⟨below, notEntry, name, keeps name member, same⟩
  simp only at within ⊢
  split at within
  · rename_i here
    rcases List.mem_append.mp within with stood | now
    · exact before stood
    · obtain rfl := List.mem_singleton.mp now
      exact ⟨(targets target aims).1, (targets target aims).2, reaches here target aims⟩
  · exact before within

theorem put (sound : draft.Sound signature?)
    (typed : instr.Typed draft.state.function (draft.state.interface signature?))
    (demands : ∀ supply ∈ instr.demands, supply ∈ draft.held)
    (targets : ∀ target ∈ instr.targets, target.id < draft.state.function.nextBlock ∧
      target.id ≠ Function.entry ∧ draft.known target.id ⊆ draft.held)
    (result : ∀ value, instr.result? = some value →
      value.id? = some draft.state.nextId ∧ count = 1)
    (external : ∀ callee ∈ instr.callee?, callee.linkage = .external →
      formatter ∈ draft.state.externals) (plain : ∀ dest value, instr ≠ .copy dest value) :
    Draft.Sound signature? ⟨draft.state.put instr count, draft.known⟩ := by
  have grows : draft.state.Grows (draft.state.put instr count) :=
    (Move.put instr count (fun holds : False => holds.elim) typed demands targets result
      external plain).grows
  have instrs := State.instrs_put_perm instr count sound.numbered sound.owned
  have subset : ∀ value ∈ draft.state.function.results,
      value ∈ (draft.state.put instr count).function.results := fun value member =>
    (State.results_put_perm instr count sound.numbered sound.owned).mem_iff.mpr
      (List.mem_append_right _ member)
  have exists_old : ∀ {id : Nat} {block : Block},
      (draft.state.put instr count).function.block? id = some block →
        ∃ old, draft.state.function.block? id = some old := fun found =>
    sound.numbered.exists_block
      (State.nextBlock_put ▸ (grows.numbered sound.numbered).lt_of_block? found)
  have later : ∀ other : Instr,
      other.Typed draft.state.function (draft.state.interface signature?) →
      other.Typed (draft.state.put instr count).function
        ((draft.state.put instr count).interface signature?) :=
    fun other holds => holds.mono grows.params_eq grows.result_eq subset
      grows.strings_extend.length_le (by exact fun _ _ known => known)
  exact
    { numbered := grows.numbered sound.numbered
      current_lt := by
        simp only [State.nextBlock_put]
        simpa [State.put, State.emit] using sound.current_lt
      labels := by
        refine (State.connectAll_labels _ _).trans
          ((Function.map_blocks_append _ fun _ _ => rfl).trans ?_)
        simpa [State.put, State.emit, Function.append, Function.modify] using sound.labels
      requests_listed := by
        simpa [State.put, State.emit, Function.append, Function.modify] using sound.requests_listed
      params_id := by
        simp only [grows.params_eq]
        exact sound.params_id
      params_le := by
        simp only [grows.params_eq]
        exact sound.params_le.trans grows.nextId_le
      results_nodup := sound.results_nodup_put fun value isResult => (result value isResult).1
      results_range := by
        simp only [grows.params_eq]
        exact sound.results_range_put result grows.nextId_le
      typed := by
        intro other member
        rcases List.mem_cons.mp (instrs.mem_iff.mp member) with rfl | old
        · exact later other typed
        · exact later other (sound.typed other old)
      start := sound.start
      covered := by
        intro id
        by_cases here : id = draft.state.current.id
        · subst here
          simp only [State.code_put_self sound.owned]
          refine covered_append.mpr ⟨sound.covered _, demands, fun target aims => ?_, trivial⟩
          exact (targets target aims).2.2
        · simp only [State.code_put_of_ne here]
          exact sound.covered id
      targets := by
        intro id block found other within target aims
        obtain ⟨old, oldFound⟩ := exists_old found
        simp only [State.nextBlock_put]
        exact sound.targets_put (fun target aims => ⟨(targets target aims).1,
          (targets target aims).2.1⟩) oldFound found within aims
      predecessors := by
        intro block found
        obtain ⟨old, oldFound⟩ := exists_old found
        obtain ⟨successors, predecessors, newFound, -, -, same⟩ :=
          State.block?_put instr count oldFound
        obtain rfl := Option.some.inj (found.symm.trans newFound)
        simp only [same fun target aims => (targets target aims).2.1]
        exact sound.predecessors old oldFound
      externals := by
        intro other member callee isCallee linkage
        refine grows.externals_subset _ ?_
        rcases List.mem_cons.mp (instrs.mem_iff.mp member) with rfl | old
        · exact external callee isCallee linkage
        · exact sound.externals other old callee isCallee linkage
      declared := by
        simpa [State.put, State.emit] using sound.declared }

end Put

/-- **Moves keep a draft sound.** -/
theorem move (sound : draft.Sound signature?) (move : Move signature? tidy draft after) :
    after.Sound signature? := by
  cases move with
  | note number more function current strings externals =>
      exact sound.note number more function current strings externals
  | put instr count takes typed demands targets result external plain =>
      exact sound.put typed demands targets result external plain
  | block label listed => exact sound.block listed
  | enter name owned => exact sound.enter owned

theorem moves (sound : draft.Sound signature?) (moves : Moves signature? tidy draft after) :
    after.Sound signature? := by
  induction moves with
  | refl => exact sound
  | tail _ move ih => exact ih.move move

end Draft.Sound

/-- No block has a terminator before its end. -/
def State.Shaped (state : State) : Prop := ∀ id, IR.Shaped (state.function.code id)

/-- Tidy moves put no terminator before the end of a block. -/
theorem State.Shaped.move {before after : Draft} (shaped : before.state.Shaped)
    (owned : (before.state.function.block? before.state.current.id).isSome)
    (move : Move signature? True before after) : after.state.Shaped := by
  intro id
  cases move with
  | note number more function current strings externals =>
      simp only [function]
      exact shaped id
  | put instr count takes typed demands targets result external =>
      by_cases here : id = before.state.current.id
      · subst here
        simp only [State.code_put_self owned]
        exact shaped_append_singleton.mpr
          ((shaped _).forall_mem (Function.isOpen_iff.mp (takes trivial)).2)
      · simp only [State.code_put_of_ne here]
        exact shaped id
  | block label listed =>
      simp only [State.addBlock, Function.code_newBlock]
      exact shaped id
  | enter name owned => exact shaped id

theorem State.Shaped.moves {before after : Draft} (shaped : before.state.Shaped)
    (sound : before.Sound signature?) (moves : Moves signature? True before after) :
    after.state.Shaped := by
  induction moves with
  | refl => exact shaped
  | tail earlier move ih => exact ih.move (sound.moves earlier).owned move

end ScriptCompiler.Lowering
