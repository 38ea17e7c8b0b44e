import Mathlib.Data.List.Forall2
import ScriptCompiler.Proofs.Optimize.NormalForm

/-!
# Where nothing is shared

A function of a module is a function with shared parts in which no part is shared: every instruction
stands in its own place, and what tells values apart is their kind and number.  The passes keep this
(`Mirrors`): what they make of the one they make of the other, and they report the same changes
(`Mirrors.optimizeFunction`).  So the optimizer leaves the functions of a module in normal form
after one round (`Optimizer.optimizeFunction_isNormal`).
-/

namespace ScriptCompiler.IR.Shared

/-! ### Instructions -/

/-- The result of an instruction, as a value with a name. -/
def Name.ofTemp (temp : Temp) : Name := ⟨.temporary, temp.id⟩

/-- What an instruction reads, where nothing is shared. -/
def Operand.ofValue : Value → Operand
  | .constant content => .plain (some content)
  | .param place => .named ⟨.parameter, place.id⟩
  | .slot place => .named ⟨.slot, place.id⟩
  | .temp result => .named (.ofTemp result)
  | .string index => .named ⟨.global, index⟩
  | .stray _ => .plain none

/-- An instruction, where nothing is shared. -/
def Node.ofInstr : Instr → Node
  | .binary opcode dest left right =>
      .binary opcode (some (.ofTemp dest)) (.ofValue left) (.ofValue right)
  | .unary opcode dest operand => .unary opcode (some (.ofTemp dest)) (.ofValue operand)
  | .copy dest value => .copy (some (.ofTemp dest)) (.ofValue value)
  | .alloca slot => .alloca (some ⟨.slot, slot.id⟩) slot.type
  | .load dest address => .load (some (.ofTemp dest)) (.ofValue address)
  | .store address value => .store (.ofValue address) (.ofValue value)
  | .call dest callee arguments =>
      .call (dest.map .ofTemp) callee (arguments.map .ofValue)
  | .jump target => .jump target.id
  | .branch condition ifTrue ifFalse => .branch (.ofValue condition) ifTrue.id ifFalse.id
  | .ret value => .ret (value.map .ofValue)

/-- What is known, where nothing is shared. -/
def Known.ofKnown (known : IR.Known) : Known :=
  known.map fun fact => (⟨.temporary, fact.1⟩, .plain (some fact.2))

/-- The places of instructions, where nothing is shared. -/
def placed (instrs : List Instr) : List Occurrence := instrs.map fun instr => .own (.ofInstr instr)

section Instructions

variable {constants : Nat → Constant} {known : IR.Known} {instr : Instr}

theorem Operand.constant?_ofValue (value : Value) :
    (ofValue value).constant? constants =
      match value with
      | .constant content => some content
      | _ => none := by
  cases value <;> rfl

theorem Operand.isSame_ofValue (value other : Value) :
    (ofValue value).isSame (ofValue other) = value.isSame other := by
  cases value <;> cases other <;> simp [ofValue, isSame, Value.isSame, Name.ofTemp]

theorem Known.lookup_ofKnown (known : IR.Known) (name : Name) :
    (ofKnown known).lookup name =
      if name.kind = .temporary then (known.lookup name.id).map fun content => .plain (some content)
      else none := by
  induction known with
  | nil => simp [ofKnown]
  | cons fact rest ih =>
      rw [ofKnown, List.map_cons, List.lookup_cons, ← ofKnown, ih, List.lookup_cons]
      by_cases same : name = ⟨.temporary, fact.1⟩
      · simp [same]
      · rw [beq_false_of_ne same]
        by_cases isResult : name.kind = .temporary
        · have differ : name.id ≠ fact.1 := fun equal => same (by rw [← isResult, ← equal])
          rw [if_pos isResult, if_pos isResult, beq_false_of_ne differ]
        · rw [if_neg isResult, if_neg isResult]

theorem Operand.known?_ofValue (value : Value) :
    (ofValue value).known? (.ofKnown known) =
      (value.known? known).map fun content => .plain (some content) := by
  cases value with
  | temp result => simp [ofValue, known?, Known.lookup_ofKnown, Name.ofTemp, Value.known?]
  | param place | slot place | string index =>
      simp [ofValue, known?, Known.lookup_ofKnown, Value.known?]
  | constant | stray => rfl

theorem Operand.replaced_ofValue (value : Value) :
    (ofValue value).replaced (.ofKnown known) = ofValue (value.replaced known) := by
  rw [replaced, known?_ofValue, Value.replaced]
  cases value.known? known <;> rfl

namespace Node

theorem inputs_ofInstr (instr : Instr) :
    (ofInstr instr).inputs = instr.inputs.map .ofValue := by
  cases instr with
  | ret value => cases value <;> rfl
  | binary | unary | copy | alloca | load | store | call | jump | branch => rfl

theorem operands_ofInstr (instr : Instr) :
    (ofInstr instr).operands = instr.operands.map .ofValue := by
  cases instr with
  | ret value => cases value <;> rfl
  | binary | unary | copy | alloca | load | store | call | jump | branch => rfl

theorem hasEffect_ofInstr (instr : Instr) : (ofInstr instr).hasEffect = instr.hasEffect := by
  cases instr <;> rfl

theorem result?_ofInstr (instr : Instr) :
    (ofInstr instr).result?.map .named = instr.result?.map Operand.ofValue := by
  cases instr with
  | call dest callee arguments => cases dest <;> rfl
  | binary | unary | copy | alloca | load | store | jump | branch | ret => rfl

/-- No result is a constant. -/
theorem kind_of_result?_ofInstr {name : Name} (isResult : name ∈ (ofInstr instr).result?) :
    name.kind ≠ .constant := by
  cases instr with
  | call dest callee arguments =>
      cases dest with
      | none => cases isResult
      | some temp =>
          cases isResult
          nofun
  | binary | unary | copy | alloca | load =>
      cases isResult
      nofun
  | store | jump | branch | ret => cases isResult

theorem substituted_ofInstr (instr : Instr) :
    (ofInstr instr).substituted (.ofKnown known) = ofInstr (instr.substituted known) := by
  cases instr with
  | call dest callee arguments =>
      simp [ofInstr, substituted, Instr.substituted, Operand.replaced_ofValue]
  | ret value =>
      cases value <;> simp [ofInstr, substituted, Instr.substituted, Operand.replaced_ofValue]
  | binary | unary | copy | alloca | load | store | jump | branch =>
      simp only [ofInstr, substituted, Instr.substituted, Operand.replaced_ofValue]

theorem isSubstituted_ofInstr (instr : Instr) :
    (ofInstr instr).isSubstituted (.ofKnown known) = instr.isSubstituted known := by
  rw [isSubstituted, inputs_ofInstr, List.any_map, Instr.isSubstituted]
  congr 1
  funext value
  simp [Operand.known?_ofValue]

/-- The same instructions are folded, to the same ones. -/
theorem folded?_ofInstr (instr : Instr) :
    (ofInstr instr).folded? constants =
      match instr.computed? with
      | some (dest, content) => some (ofInstr (.copy dest (.constant content)), none)
      | none =>
          instr.decided?.map fun (taken, dropped) =>
            (.jump taken.id, if dropped.id = taken.id then none else some dropped.id) := by
  cases instr with
  | binary opcode dest left right =>
      cases left <;> try rfl
      cases right <;> try rfl
      rename_i left right
      rw [ofInstr, folded?, Operand.constant?_ofValue, Operand.constant?_ofValue, Instr.computed?]
      dsimp only
      cases opcode.onConstants? left right <;> rfl
  | unary opcode dest operand =>
      cases operand <;> try rfl
      rename_i content
      rw [ofInstr, folded?, Operand.constant?_ofValue, Instr.computed?]
      dsimp only
      cases opcode.onConstant? content <;> rfl
  | branch condition ifTrue ifFalse =>
      cases condition <;> try rfl
      rename_i content
      cases content with
      | bool value => cases value <;> rfl
      | int | float | nothing => rfl
  | copy | alloca | load | store | call | jump | ret => rfl

theorem facts_ofInstr (instr : Instr) :
    (ofInstr instr).facts constants =
      match instr with
      | .copy dest (.constant content) => [(.ofTemp dest, .plain (some content))]
      | _ => [] := by
  cases instr with
  | copy dest value => cases value <;> rfl
  | binary | unary | alloca | load | store | call | jump | branch | ret => rfl

end Node

end Instructions

/-! ### Folding code -/

namespace Folding

variable {constants : Nat → Constant} {cells : Nat → Node}

/-- What folding has found, where nothing is shared. -/
def ofFolding (cells : Nat → Node) (state : IR.Folding) : Folding :=
  { cells, known := .ofKnown state.known, changed := state.changed }

/-- Both ways of folding make the same of an instruction. -/
theorem onOccurrence_ofInstr (state : IR.Folding) (instr : Instr) :
    (ofFolding cells state).onOccurrence constants (.own (.ofInstr instr)) =
      (ofFolding cells (state.onInstr instr).1, .own (.ofInstr (state.onInstr instr).2.1),
        (state.onInstr instr).2.2.map BlockName.id) := by
  unfold onOccurrence IR.Folding.onInstr
  simp only [Occurrence.node, ofFolding, Node.substituted_ofInstr, Node.isSubstituted_ofInstr,
    Occurrence.write, Node.folded?_ofInstr]
  generalize instr.substituted state.known = given
  cases given.computed? with
  | some result => simp only [Node.facts_ofInstr]; rfl
  | none =>
      cases given.decided? with
      | some choice =>
          obtain ⟨taken, dropped⟩ := choice
          by_cases same : dropped.id = taken.id <;> simp [same, Node.facts, Node.ofInstr]
      | none =>
          simp only [Option.map_none, Node.facts_ofInstr]
          cases given with
          | copy dest value => cases value <;> rfl
          | binary | unary | alloca | load | store | call | jump | branch | ret => rfl

theorem onCode_placed (state : IR.Folding) (instrs : List Instr) :
    (ofFolding cells state).onCode constants (placed instrs) =
      (ofFolding cells (state.onInstrs instrs).1, placed (state.onInstrs instrs).2.1,
        (state.onInstrs instrs).2.2.map BlockName.id) := by
  induction instrs generalizing state with
  | nil => rfl
  | cons instr rest ih =>
      rw [placed, List.map_cons, onCode, onOccurrence_ofInstr, ← placed]
      dsimp only
      rw [ih, IR.Folding.onInstrs]
      obtain ⟨next, folded, dropped⟩ := state.onInstr instr
      cases dropped <;> rfl

/-- Folding blocks keeps what is seen of them but for their code. -/
theorem map_onBlocks {α : Type} (view : Block → α)
    (keeps : ∀ block instrs, view { block with instrs := instrs } = view block)
    (state : IR.Folding) (blocks : List Block) :
    (state.onBlocks blocks).2.1.map view = blocks.map view := by
  induction blocks generalizing state with
  | nil => rfl
  | cons block rest ih =>
      exact congrArg₂ List.cons (keeps block _) (ih (state.onInstrs block.instrs).1)

/-- Both ways of folding make the same of blocks with different numbers. -/
theorem onBlocks_placed (constants : Nat → Constant) (cells : Nat → Node) (state : IR.Folding)
    {blocks : List Block} {code : Nat → List Occurrence}
    (unique : (blocks.map fun block => block.name.id).Nodup)
    (same : ∀ block ∈ blocks, code block.name.id = placed block.instrs) :
    let (last, final, edges) :=
      (ofFolding cells state).onBlocks constants code (blocks.map fun block => block.name.id)
    last = ofFolding cells (state.onBlocks blocks).1 ∧
      edges = (state.onBlocks blocks).2.2.map edgeIds ∧
      ∀ block ∈ (state.onBlocks blocks).2.1, final block.name.id = placed block.instrs := by
  induction blocks generalizing state code with
  | nil => exact ⟨rfl, rfl, by simp [IR.Folding.onBlocks]⟩
  | cons block rest ih =>
      obtain ⟨fresh, uniqueLater⟩ := List.nodup_cons.mp unique
      obtain ⟨here, later⟩ := List.forall_mem_cons.mp same
      have sameLater : ∀ other ∈ rest,
          Function.update code block.name.id (placed (state.onInstrs block.instrs).2.1)
            other.name.id = placed other.instrs := by
        intro other member
        have differ : other.name.id ≠ block.name.id := fun equal =>
          fresh (List.mem_map.mpr ⟨other, member, equal⟩)
        rw [Function.update_of_ne differ]
        exact later other member
      obtain ⟨states, edges, codes⟩ := ih (state.onInstrs block.instrs).1 uniqueLater sameLater
      rw [List.map_cons, onBlocks, here, onCode_placed]
      refine ⟨states, ?_, List.forall_mem_cons.mpr ⟨?_, codes⟩⟩
      · rw [IR.Folding.onBlocks]
        dsimp only
        rw [edges, List.map_append, List.map_map, List.map_map]
        rfl
      · -- the code of the first block is not changed when the others are folded
        dsimp only
        rw [onBlocks_code fun within => absurd within fresh, Function.update_self]

end Folding

/-! ### Functions -/

/-- A function of a module in which nothing is shared, and the same one as a function with shared
parts. -/
structure Mirrors (function : IR.Function) (shared : Function) : Prop where
  /-- It is more than declared. -/
  defined : shared.external = false
  /-- It has the same blocks. -/
  blocks : shared.blocks = function.blocks.map fun block => block.name.id
  /-- No block stands twice. -/
  unique : shared.blocks.Nodup
  /-- The blocks have the same code. -/
  code : ∀ id ∈ shared.blocks, shared.code id = placed (function.code id)
  /-- The blocks take the same numbers for their places. -/
  index : shared.blocks.map shared.index = function.blocks.map Block.index
  /-- Control may pass to the same blocks. -/
  successors : ∀ id, shared.successorsOf id = function.successorsOf id
  /-- Control may come from the same blocks. -/
  predecessors : ∀ id ∈ shared.blocks, shared.predecessorsOf id = function.predecessorsOf id

namespace Function

variable {shared : Function}

/-- What is left of the ends when edges are filtered. -/
theorem ends_filter (edges : List (Nat × Nat)) (keep : Nat × Nat → Bool) (id : Nat) :
    ends (edges.filter keep) id = (ends edges id).filter fun other => keep (id, other) := by
  rw [ends, ends, List.filterMap_filter, List.filter_filterMap]
  congr 1
  funext edge
  by_cases begins : edge.1 = id
  · have whole : (id, edge.2) = edge := by rw [← begins]
    simp [begins, whole, Option.filter]
  · simp [begins]

/-- Forgotten edges are missing in both directions. -/
theorem edges_removeEdges (edges : List (Nat × Nat)) (shared : Function) :
    (shared.removeEdges edges).successors = shared.successors.filter (· ∉ edges) ∧
      (shared.removeEdges edges).predecessors =
        shared.predecessors.filter fun edge => (edge.2, edge.1) ∉ edges := by
  induction edges generalizing shared with
  | nil => simp [removeEdges]
  | cons edge rest ih =>
      obtain ⟨successors, predecessors⟩ := ih (shared.removeEdge edge.1 edge.2)
      rw [removeEdges, List.foldl_cons, ← removeEdges, successors, predecessors, removeEdge,
        List.filter_filter, List.filter_filter]
      have same : ∀ other,
          (decide (other ∉ rest) && other != edge) = decide (other ∉ edge :: rest) := by
        intro other
        rw [Bool.eq_iff_iff]
        simp [and_comm]
      refine ⟨List.filter_congr fun other _ => same other, List.filter_congr fun other _ => ?_⟩
      rw [← same]
      congr 1
      rw [Bool.eq_iff_iff, bne_iff_ne, bne_iff_ne, Ne, Ne, Prod.ext_iff, Prod.ext_iff, and_comm]

theorem blocks_removeEdges (edges : List (Nat × Nat)) (shared : Function) :
    (shared.removeEdges edges).blocks = shared.blocks := by
  obtain ⟨successors, predecessors, same⟩ := shared.removeEdges_eq edges
  rw [same]

theorem successorsOf_removeEdges (edges : List (Nat × Nat)) (shared : Function) (id : Nat) :
    (shared.removeEdges edges).successorsOf id =
      (shared.successorsOf id).filter fun next => (id, next) ∉ edges := by
  rw [successorsOf, (edges_removeEdges edges shared).1, ends_filter, successorsOf]

theorem predecessorsOf_removeEdges (edges : List (Nat × Nat)) (shared : Function) (id : Nat) :
    (shared.removeEdges edges).predecessorsOf id =
      (shared.predecessorsOf id).filter fun last => (last, id) ∉ edges := by
  rw [predecessorsOf, (edges_removeEdges edges shared).2, ends_filter, predecessorsOf]

/-- Removing the edges out of different blocks is forgetting them one after the other. -/
theorem foldl_detach {dead : List Nat} (once : dead.Nodup) (shared : Function) :
    dead.foldl detach shared =
      shared.removeEdges (dead.flatMap fun block =>
        (shared.successorsOf block).map fun target => (block, target)) := by
  induction dead generalizing shared with
  | nil => rfl
  | cons block rest ih =>
      obtain ⟨fresh, onceLater⟩ := List.nodup_cons.mp once
      have first : shared.detach block = shared.removeEdges
          ((shared.successorsOf block).map fun target => (block, target)) := rfl
      have same : ∀ other ∈ rest, ((shared.detach block).successorsOf other).map
            (fun target => (other, target)) =
          (shared.successorsOf other).map fun target => (other, target) := by
        intro other member
        have differ : block ≠ other := fun equal => fresh (equal ▸ member)
        rw [first, successorsOf_removeEdges, List.filter_eq_self.mpr]
        simp [differ]
      rw [List.foldl_cons, ih onceLater, List.flatMap_congr same, List.flatMap_cons, first,
        removeEdges, removeEdges, removeEdges, List.foldl_append]

/-- Telling blocks their places from a number on: other blocks keep theirs, and the blocks, when
each stands once, count on. -/
theorem foldl_update_zipIdx {blocks : List Nat} (once : blocks.Nodup) (start : Nat)
    (index : Nat → Nat) :
    let told := (blocks.zipIdx start).foldl
      (fun index place => Function.update index place.1 place.2) index
    (∀ block, block ∉ blocks → told block = index block) ∧
      blocks.map told = List.range' start blocks.length := by
  induction blocks generalizing start index with
  | nil => exact ⟨fun _ _ => rfl, rfl⟩
  | cons block rest ih =>
      obtain ⟨fresh, onceLater⟩ := List.nodup_cons.mp once
      obtain ⟨stays, places⟩ := ih onceLater (start + 1) (Function.update index block start)
      rw [List.zipIdx_cons, List.foldl_cons]
      refine ⟨fun other missing => ?_, ?_⟩
      · rw [List.mem_cons, not_or] at missing
        obtain ⟨differ, missingLater⟩ := missing
        rw [stays other missingLater, Function.update_of_ne differ]
      · rw [List.map_cons, places, stays block fresh, Function.update_self, List.length_cons,
          List.range'_succ]

/-- Blocks that stand once are told their places. -/
theorem map_index_renumber (shared : Function) (once : shared.blocks.Nodup) :
    shared.blocks.map shared.renumber.index = List.range shared.blocks.length := by
  rw [List.range_eq_range']
  exact (foldl_update_zipIdx once 0 shared.index).2

end Function

/-- The blocks of a function that cannot be reached. -/
def deadBlocks (function : IR.Function) : List Block :=
  function.blocks.filter fun block => !function.reachable.contains block.name.id

theorem dropUnreachable_deadBlocks (function : IR.Function) :
    function.dropUnreachable =
      if (deadBlocks function).isEmpty then (function, false)
      else (((function.removeEdges (IR.Function.edgesOut (deadBlocks function))).restrict
        function.reachable.contains).renumber, true) := by
  rw [← IR.Function.foldl_detach]
  rfl

namespace Mirrors

variable {function : IR.Function} {shared : Function}

theorem isSome_block? (mirrors : Mirrors function shared) {id : Nat} :
    id ∈ shared.blocks ↔ (function.block? id).isSome := by
  rw [mirrors.blocks, Function.block?_isSome_iff]

/-- The blocks of both functions have the same instructions. -/
theorem listing_eq (mirrors : Mirrors function shared) :
    shared.listing = function.instrs.map .ofInstr := by
  rw [Function.listing, mirrors.blocks, List.flatMap_map, IR.Function.instrs, List.map_flatMap]
  refine List.flatMap_congr fun block member => ?_
  have found := IR.Function.block?_of_mem (mirrors.blocks ▸ mirrors.unique) member
  rw [mirrors.code _ (mirrors.blocks ▸ List.mem_map_of_mem member), IR.Function.code_eq found,
    placed, List.map_map]
  rfl

theorem size_eq (mirrors : Mirrors function shared) :
    shared.size = function.blocks.length + function.instrs.length := by
  rw [Function.size, mirrors.listing_eq, mirrors.blocks, List.length_map, List.length_map]

/-- Where nothing is shared, every instruction stands once and defines no constant. -/
theorem proper (mirrors : Mirrors function shared) : shared.Proper where
  results := by
    intro node member name isResult
    rw [mirrors.listing_eq] at member
    obtain ⟨instr, -, rfl⟩ := List.mem_map.mp member
    exact Node.kind_of_result?_ofInstr isResult
  nodes := by
    have none : Folding.cellsOf (shared.blocks.flatMap shared.code) = [] := by
      refine List.filterMap_eq_nil_iff.mpr fun place member => ?_
      obtain ⟨id, isBlock, inside⟩ := List.mem_flatMap.mp member
      rw [mirrors.code id isBlock] at inside
      obtain ⟨instr, -, rfl⟩ := List.mem_map.mp inside
      rfl
    rw [none]
    exact List.nodup_nil
  blocks := mirrors.unique.imp fun differ same => absurd same differ

/-- Forgetting the same edges keeps functions mirrors of each other. -/
theorem removeEdges (mirrors : Mirrors function shared) (edges : List (BlockName × BlockName)) :
    Mirrors (function.removeEdges edges) (shared.removeEdges (edges.map edgeIds)) := by
  obtain ⟨successors, predecessors, same⟩ := shared.removeEdges_eq (edges.map edgeIds)
  have heads := IR.Function.map_blocks_removeEdges edges function
    (fun block => (block.name.id, block.index)) fun _ _ _ => rfl
  have ids := congrArg (List.map Prod.fst) heads
  have places := congrArg (List.map Prod.snd) heads
  rw [List.map_map, List.map_map] at ids places
  have stays := shared.blocks_removeEdges (edges.map edgeIds)
  refine ⟨?_, ?_, ?_, ?_, ?_, ?_, ?_⟩
  · rw [same]
    exact mirrors.defined
  · exact stays.trans (mirrors.blocks.trans ids.symm)
  · exact stays ▸ mirrors.unique
  · intro id member
    rw [IR.Function.code_removeEdges, ← mirrors.code id (stays ▸ member), same]
  · rw [same]
    exact mirrors.index.trans places.symm
  · intro id
    rw [Function.successorsOf_removeEdges, IR.Function.successorsOf_removeEdges,
      mirrors.successors]
  · intro id member
    rw [Function.predecessorsOf_removeEdges, IR.Function.predecessorsOf_removeEdges,
      mirrors.predecessors id (stays ▸ member)]

/-- **Folding does the same to both functions.** -/
theorem foldConstants (mirrors : Mirrors function shared) :
    Mirrors function.foldConstants.1 shared.foldConstants.1 ∧
      shared.foldConstants.2 = function.foldConstants.2.changed := by
  have unique : (function.blocks.map fun block => block.name.id).Nodup :=
    mirrors.blocks ▸ mirrors.unique
  have same : ∀ block ∈ function.blocks, shared.code block.name.id = placed block.instrs := by
    intro block member
    rw [mirrors.code _ (mirrors.blocks ▸ List.mem_map_of_mem member),
      IR.Function.code_eq (IR.Function.block?_of_mem unique member)]
  obtain ⟨states, edges, codes⟩ :=
    Folding.onBlocks_placed shared.constants shared.cells {} unique same
  rw [← mirrors.blocks] at states edges codes
  have views : ∀ {α : Type} (view : Block → α),
      (∀ block instrs, view { block with instrs := instrs } = view block) →
        (IR.Folding.onBlocks {} function.blocks).2.1.map view = function.blocks.map view :=
    fun view keeps => Folding.map_onBlocks view keeps {} function.blocks
  have ids := views (fun block => block.name.id) fun _ _ => rfl
  have neighbours : ∀ id, IR.Function.successorsOf
        { function with blocks := (IR.Folding.onBlocks {} function.blocks).2.1 } id =
          function.successorsOf id ∧
      IR.Function.predecessorsOf
        { function with blocks := (IR.Folding.onBlocks {} function.blocks).2.1 } id =
          function.predecessorsOf id :=
    fun id => IR.Function.neighbours_congr (views _ fun _ _ => rfl)
  have folded : Mirrors
      { function with blocks := (IR.Folding.onBlocks {} function.blocks).2.1 }
      { shared with cells := shared.found.1.cells, code := shared.found.2.1 } := by
    refine ⟨mirrors.defined, mirrors.blocks.trans ids.symm, mirrors.unique, ?_,
      mirrors.index.trans (views _ fun _ _ => rfl).symm,
      fun id => (mirrors.successors id).trans (neighbours id).1.symm,
      fun id member => (mirrors.predecessors id member).trans (neighbours id).2.symm⟩
    intro id member
    rw [mirrors.blocks, ← ids] at member
    obtain ⟨block, within, rfl⟩ := List.mem_map.mp member
    rw [IR.Function.code_eq (IR.Function.block?_of_mem (ids ▸ unique) within)]
    exact codes block within
  have removed := folded.removeEdges (IR.Folding.onBlocks {} function.blocks).2.2
  rw [← edges] at removed
  exact ⟨removed, congrArg Folding.changed states⟩

/-- Both functions reach the same blocks. -/
theorem contains_reachable (mirrors : Mirrors function shared) :
    shared.reachable.contains = function.reachable.contains := by
  funext id
  rw [Bool.eq_iff_iff, List.contains_iff_mem, List.contains_iff_mem, Function.mem_reachable_iff,
    IR.Function.mem_reachable_iff]
  simp only [← mirrors.successors, Function.mem_successorsOf]
  rfl

/-- Leaving out the same blocks, from which no edge begins, keeps functions mirrors of each
other. -/
theorem restrict_renumber (mirrors : Mirrors function shared) {live : Nat → Bool}
    (detached : ∀ id ∈ shared.blocks, live id = false → shared.successorsOf id = []) :
    Mirrors (function.restrict live).renumber
      (Function.renumber { shared with blocks := shared.blocks.filter live }) := by
  have neighbours : ∀ id, (function.restrict live).renumber.successorsOf id =
        (function.restrict live).successorsOf id ∧
      (function.restrict live).renumber.predecessorsOf id =
        (function.restrict live).predecessorsOf id :=
    fun id => IR.Function.neighbours_congr (IR.Function.map_blocks_renumber _ fun _ _ => rfl)
  have ids : shared.blocks.filter live =
      (function.restrict live).renumber.blocks.map fun block => block.name.id := by
    rw [IR.Function.map_blocks_renumber _ fun _ _ => rfl, mirrors.blocks, List.filter_map]
    rfl
  refine ⟨mirrors.defined, ids, mirrors.unique.filter _, ?_, ?_, ?_, ?_⟩
  · intro id member
    obtain ⟨isBlock, isLive⟩ := List.mem_filter.mp member
    rw [IR.Function.code_congr (IR.Function.map_blocks_renumber _ fun _ _ => rfl),
      IR.Function.code_restrict, if_pos isLive]
    exact mirrors.code id isBlock
  · have places := Function.map_index_renumber
      { shared with blocks := shared.blocks.filter live } (mirrors.unique.filter _)
    refine places.trans (Eq.trans ?_ IR.Function.renumber_places.symm)
    have lengths := congrArg List.length ids
    rw [IR.Function.map_blocks_renumber _ fun _ _ => rfl, List.length_map] at lengths
    exact congrArg List.range lengths
  · intro id
    rw [(neighbours id).1, IR.Function.successorsOf_restrict]
    split
    · exact mirrors.successors id
    · rename_i isDead
      change shared.successorsOf id = []
      by_cases isBlock : id ∈ shared.blocks
      · exact detached id isBlock (by simpa using isDead)
      · rw [mirrors.successors, List.eq_nil_iff_forall_not_mem]
        exact fun next edge =>
          isBlock (mirrors.isSome_block?.mpr (IR.Function.isSome_of_mem_successorsOf edge))
  · intro id member
    obtain ⟨isBlock, isLive⟩ := List.mem_filter.mp member
    rw [(neighbours id).2, IR.Function.predecessorsOf_restrict, if_pos isLive]
    exact mirrors.predecessors id isBlock

/-- The blocks that cannot be reached have the same numbers. -/
theorem dead_eq (mirrors : Mirrors function shared) :
    (shared.blocks.filter fun id => !shared.reachable.contains id) =
      (deadBlocks function).map fun block => block.name.id := by
  rw [mirrors.blocks, List.filter_map, mirrors.contains_reachable]
  rfl

/-- The same edges begin in the blocks that cannot be reached. -/
theorem edgesOut_dead (mirrors : Mirrors function shared) :
    (((deadBlocks function).map fun block => block.name.id).flatMap fun id =>
      (shared.successorsOf id).map fun target => (id, target)) =
        (IR.Function.edgesOut (deadBlocks function)).map edgeIds := by
  rw [List.flatMap_map, IR.Function.edgesOut, List.map_flatMap]
  refine List.flatMap_congr fun block member => ?_
  have found := IR.Function.block?_of_mem (mirrors.blocks ▸ mirrors.unique)
    (List.mem_of_mem_filter member)
  rw [mirrors.successors, IR.Function.successorsOf_eq found, List.map_map, List.map_map]
  rfl

/-- What dropping blocks comes to, in terms of the function of the module. -/
theorem dropUnreachable_eq (mirrors : Mirrors function shared) :
    shared.dropUnreachable =
      if (deadBlocks function).isEmpty then (shared, false)
      else (Function.renumber
        { shared.removeEdges ((IR.Function.edgesOut (deadBlocks function)).map edgeIds) with
          blocks := shared.blocks.filter function.reachable.contains }, true) := by
  have once : ((deadBlocks function).map fun block => block.name.id).Nodup :=
    mirrors.dead_eq ▸ mirrors.unique.filter _
  unfold Function.dropUnreachable
  dsimp only
  rw [mirrors.dead_eq, List.isEmpty_map, Function.foldl_detach once, mirrors.edgesOut_dead,
    Function.blocks_removeEdges, mirrors.contains_reachable]

/-- No edge is left out of a block that cannot be reached. -/
theorem detached (mirrors : Mirrors function shared) {id : Nat} (member : id ∈ shared.blocks)
    (isDead : function.reachable.contains id = false) :
    (shared.removeEdges
      ((IR.Function.edgesOut (deadBlocks function)).map edgeIds)).successorsOf id = [] := by
  obtain ⟨block, found⟩ := Option.isSome_iff_exists.mp (mirrors.isSome_block?.mp member)
  rw [(mirrors.removeEdges _).successors, IR.Function.successorsOf_removeEdges,
    List.filter_eq_nil_iff]
  intro next edge
  rw [decide_eq_true_iff, not_not, IR.Function.mem_edgesOut]
  have isBlock := IR.Function.id_of_block? found
  refine ⟨block, List.mem_filter.mpr ⟨IR.Function.mem_of_block? found, ?_⟩, isBlock, ?_⟩
  · rw [isBlock, isDead]
    rfl
  · rwa [← IR.Function.successorsOf_eq found]

/-- **The same blocks are dropped from both functions.** -/
theorem dropUnreachable (mirrors : Mirrors function shared) :
    Mirrors function.dropUnreachable.1 shared.dropUnreachable.1 ∧
      shared.dropUnreachable.2 = function.dropUnreachable.2 := by
  rw [mirrors.dropUnreachable_eq, dropUnreachable_deadBlocks]
  split
  · exact ⟨mirrors, rfl⟩
  · refine ⟨?_, rfl⟩
    have kept := shared.blocks_removeEdges
      ((IR.Function.edgesOut (deadBlocks function)).map edgeIds)
    rw [← kept]
    exact (mirrors.removeEdges _).restrict_renumber fun id member isDead =>
      mirrors.detached (kept ▸ member) isDead

/-- Tests that agree on instructions keep the same ones of both functions. -/
theorem keepInstrs (mirrors : Mirrors function shared) {keep : Instr → Bool} {test : Node → Bool}
    (agree : ∀ instr, test (.ofInstr instr) = keep instr) :
    Mirrors (function.keepInstrs keep).1 (shared.keepNodes test).1 ∧
      (shared.keepNodes test).2 = (function.keepInstrs keep).2 := by
  have views : ∀ {α : Type} (view : Block → α),
      (∀ block instrs, view { block with instrs := instrs } = view block) →
        (function.keepInstrs keep).1.blocks.map view = function.blocks.map view := by
    intro α view same
    rw [IR.Function.keepInstrs, List.map_map]
    exact List.map_congr_left fun block _ => same block _
  have neighbours : ∀ id,
      (function.keepInstrs keep).1.successorsOf id = function.successorsOf id ∧
        (function.keepInstrs keep).1.predecessorsOf id = function.predecessorsOf id :=
    fun id => IR.Function.neighbours_congr (views _ fun _ _ => rfl)
  refine ⟨⟨mirrors.defined, mirrors.blocks.trans (views _ fun _ _ => rfl).symm, mirrors.unique,
    fun id member => ?_, mirrors.index.trans (views _ fun _ _ => rfl).symm,
    fun id => (mirrors.successors id).trans (neighbours id).1.symm,
    fun id member => (mirrors.predecessors id member).trans (neighbours id).2.symm⟩, ?_⟩
  · have isBlock : shared.blocks.contains id = true := List.contains_iff_mem.mpr member
    rw [IR.Function.code_keepInstrs]
    dsimp only [Function.keepNodes]
    rw [if_pos isBlock, mirrors.code id member, placed, List.filter_map, placed]
    congr 1
    exact List.filter_congr fun instr _ => agree instr
  · dsimp only [Function.keepNodes, IR.Function.keepInstrs]
    rw [mirrors.listing_eq, List.any_map]
    congr 1
    funext instr
    exact congrArg not (agree instr)

theorem loaded_eq (mirrors : Mirrors function shared) :
    shared.loaded = function.loaded.map .ofValue := by
  rw [Function.loaded, mirrors.listing_eq, List.filterMap_map, IR.Function.loaded,
    List.map_filterMap]
  congr 1
  funext instr
  cases instr <;> rfl

theorem used_eq (mirrors : Mirrors function shared) :
    shared.used = function.used.map .ofValue := by
  rw [Function.used, mirrors.listing_eq, List.flatMap_map, IR.Function.used, List.map_flatMap]
  congr 1
  funext instr
  exact Node.operands_ofInstr instr

/-- The same values are found among those of both functions. -/
theorem any_isSame_ofValue (value : Value) (values : List Value) :
    (values.map Operand.ofValue).any (Operand.ofValue value).isSame =
      values.any value.isSame := by
  rw [List.any_map]
  congr 1
  funext other
  exact Operand.isSame_ofValue value other

/-- The same stores are dropped from both functions. -/
theorem dropDeadStores (mirrors : Mirrors function shared) :
    Mirrors function.dropDeadStores.1 shared.dropDeadStores.1 ∧
      shared.dropDeadStores.2 = function.dropDeadStores.2 := by
  refine mirrors.keepInstrs fun instr => ?_
  cases instr with
  | store address value =>
      simp only [Node.ofInstr, mirrors.loaded_eq]
      exact any_isSame_ofValue _ _
  | binary | unary | copy | alloca | load | call | jump | branch | ret => rfl

/-- The same instructions with results that nothing reads are dropped from both functions. -/
theorem dropUnused (mirrors : Mirrors function shared) :
    Mirrors function.dropUnused.1 shared.dropUnused.1 ∧
      shared.dropUnused.2 = function.dropUnused.2 := by
  refine mirrors.keepInstrs fun instr => ?_
  have results := Node.result?_ofInstr instr
  rw [mirrors.used_eq, Node.hasEffect_ofInstr]
  congr 1
  cases isResult : instr.result? with
  | none =>
      rw [isResult, Option.map_none, Option.map_eq_none_iff] at results
      rw [results]
  | some result =>
      rw [isResult, Option.map_some, Option.map_eq_some_iff] at results
      obtain ⟨name, isName, same⟩ := results
      rw [isName]
      dsimp only
      rw [same]
      exact any_isSame_ofValue _ _

/-- **A sweep does the same to both functions.** -/
theorem sweep (mirrors : Mirrors function shared) :
    Mirrors function.sweep.1 shared.sweep.1 ∧ shared.sweep.2 = function.sweep.2 := by
  obtain ⟨first, blocks⟩ := mirrors.dropUnreachable
  obtain ⟨second, stores⟩ := first.dropDeadStores
  obtain ⟨third, instrs⟩ := second.dropUnused
  exact ⟨third, congrArg₂ or (congrArg₂ or blocks stores) instrs⟩

theorem sweepWithin (mirrors : Mirrors function shared) (rounds : Nat) :
    Mirrors (function.sweepWithin rounds).1 (shared.sweepWithin rounds).1 ∧
      (shared.sweepWithin rounds).2 = (function.sweepWithin rounds).2 := by
  induction rounds generalizing function shared with
  | zero => exact ⟨mirrors, rfl⟩
  | succ rounds ih =>
      obtain ⟨swept, same⟩ := mirrors.sweep
      rw [Function.sweepWithin, IR.Function.sweepWithin]
      dsimp only
      rw [same]
      split
      · exact ⟨(ih swept).1, rfl⟩
      · exact ⟨swept, rfl⟩

/-- **Dead code elimination does the same to both functions.** -/
theorem eliminateDeadCode (mirrors : Mirrors function shared) :
    Mirrors function.eliminateDeadCode.1 shared.eliminateDeadCode.1 ∧
      shared.eliminateDeadCode.2 = function.eliminateDeadCode.2 := by
  rw [Function.eliminateDeadCode, IR.Function.eliminateDeadCode, mirrors.size_eq]
  exact mirrors.sweepWithin _

end Mirrors

/-! ### Rounds -/

/-- The changes that a round makes, as it reports them. -/
def changesIn (name : Bytes) (round : Nat) (report : Bool × Bool) :
    List PassChange :=
  (if report.1 then [⟨"ConstantFolding", name, round⟩] else []) ++
    if report.2 then [⟨"DeadCodeElimination", name, round⟩] else []

theorem round_of_mem_changesIn {name : Bytes} {round : Nat} {report : Bool × Bool}
    {change : PassChange} (member : change ∈ changesIn name round report) :
    change.round = round := by
  rcases List.mem_append.mp member with member | member <;> split at member <;> simp_all

/-- What a round comes to. -/
theorem runPasses_both (round : Nat) (progress : Progress) :
    ∃ stats, progress.runPasses round [.folding true, .deadCode] =
      (⟨progress.function.foldConstants.1.eliminateDeadCode.1, stats,
        progress.changes ++ changesIn progress.function.name round
          (progress.function.foldConstants.2.changed,
            progress.function.foldConstants.1.eliminateDeadCode.2), progress.failure⟩,
        progress.function.foldConstants.2.changed ||
          progress.function.foldConstants.1.eliminateDeadCode.2) := by
  have name := progress.function.foldConstants_head.name_eq
  simp only [Progress.runPasses, Pass.run_folding, Pass.run_deadCode, Bool.or_false, changesIn,
    name, Pass.name, List.append_assoc]
  exact ⟨_, rfl⟩

namespace Mirrors

variable {function : IR.Function} {shared : Function}

/-- **The rounds do the same to both functions**, and make the changes that are reported. -/
theorem runRounds (progress : Progress) (mirrors : Mirrors progress.function shared)
    (sound : progress.failure = none) (rounds round : Nat) :
    let last := progress.runRounds [.folding true, .deadCode] rounds round
    Mirrors last.function (shared.runRounds rounds).function ∧ last.failure = none ∧
      last.changes = progress.changes ++
        ((shared.runRounds rounds).reports.zipIdx round).flatMap fun report =>
          changesIn progress.function.name report.2 report.1 := by
  induction rounds generalizing progress shared round with
  | zero => exact ⟨mirrors, sound, (List.append_nil _).symm⟩
  | succ rounds ih =>
      obtain ⟨folded, first⟩ := mirrors.foldConstants
      obtain ⟨cleared, second⟩ := folded.eliminateDeadCode
      obtain ⟨stats, ran⟩ := runPasses_both round progress
      have name := progress.function.foldConstants.1.eliminateDeadCode_trims.head.name_eq.trans
        progress.function.foldConstants_head.name_eq
      rw [Progress.runRounds, ran, Function.runRounds, sound]
      dsimp only
      rw [first, second, Option.isNone_none, Bool.true_and]
      split
      · obtain ⟨last, none, changes⟩ := ih ⟨_, stats, _, none⟩ cleared rfl (round + 1)
        refine ⟨last, none, changes.trans ?_⟩
        rw [List.zipIdx_cons, List.flatMap_cons, List.append_assoc, name]
      · refine ⟨cleared, rfl, ?_⟩
        rw [List.zipIdx_singleton, List.flatMap_singleton]

/-- **The optimizer does the same to both functions**, and makes the changes that are reported. -/
theorem optimizeFunction {optimizer : Optimizer} {level : Int}
    (passes : optimizer.passes = (Optimizer.ofLevel level).passes)
    (mirrors : Mirrors function shared) :
    let last := optimizer.optimizeFunction function
    let outcome := shared.optimize level optimizer.maxRounds
    Mirrors last.function outcome.function ∧ last.failure = none ∧
      last.changes = outcome.reports.zipIdx.flatMap fun report =>
        changesIn function.name report.2 report.1 := by
  by_cases positive : 0 < level
  · have both : optimizer.passes = [.folding true, .deadCode] := by
      rw [passes, Optimizer.ofLevel, if_pos positive]
    obtain ⟨last, none, changes⟩ := Mirrors.runRounds { function, stats := optimizer.stats }
      mirrors rfl optimizer.maxRounds.toNat 0
    rw [Optimizer.optimizeFunction, both, Function.optimize_eq positive mirrors.defined]
    dsimp only
    rw [none]
    exact ⟨last, rfl, changes⟩
  · have noPass : optimizer.passes = [] := by
      rw [passes, Optimizer.ofLevel, if_neg positive]
    have stays : shared.optimize level optimizer.maxRounds = ⟨shared, []⟩ := by
      rw [Function.optimize, if_pos (by simp [Int.not_lt.mp positive])]
    rw [Optimizer.optimizeFunction, noPass, stays]
    exact ⟨mirrors, rfl, rfl⟩

end Mirrors

/-- A function of a module as a function with shared parts. -/
def Function.ofFunction (function : IR.Function) : Function where
  constants _ := .nothing
  cells _ := .ret none
  code id := placed (function.code id)
  index id := ((function.block? id).map Block.index).getD 0
  blocks := function.blocks.map fun block => block.name.id
  successors := function.blocks.flatMap fun block =>
    (function.successorsOf block.name.id).map fun target => (block.name.id, target)
  predecessors := function.blocks.flatMap fun block =>
    (function.predecessorsOf block.name.id).map fun source => (block.name.id, source)

/-- Edges that are listed block by block. -/
theorem Function.ends_flatMap {blocks : List Nat} (once : blocks.Nodup)
    (neighbours : Nat → List Nat) (id : Nat) :
    ends (blocks.flatMap fun block => (neighbours block).map fun other => (block, other)) id =
      if id ∈ blocks then neighbours id else [] := by
  have own : ∀ block, ends ((neighbours block).map fun other => (block, other)) id =
      if block = id then neighbours id else [] := by
    intro block
    rw [ends, List.filterMap_map]
    split
    · rename_i same
      subst same
      simp
    · rename_i differ
      simp [differ]
  induction blocks with
  | nil => rfl
  | cons block rest ih =>
      obtain ⟨fresh, onceLater⟩ := List.nodup_cons.mp once
      rw [List.flatMap_cons, ends, List.filterMap_append, ← ends, ← ends, own, ih onceLater]
      by_cases here : block = id
      · subst here
        simp [fresh]
      · simp [here, Ne.symm here]

/-- **Every function of a module is one with shared parts**, in which nothing is shared. -/
theorem Mirrors.ofFunction {function : IR.Function}
    (unique : (function.blocks.map fun block => block.name.id).Nodup) :
    Mirrors function (.ofFunction function) := by
  have neighbours : ∀ (view : Nat → List Nat) (id : Nat),
      Function.ends (function.blocks.flatMap fun block =>
        (view block.name.id).map fun other => (block.name.id, other)) id =
          if id ∈ function.blocks.map (fun block => block.name.id) then view id else [] := by
    intro view id
    rw [← Function.ends_flatMap unique view id, List.flatMap_map]
  refine ⟨rfl, rfl, unique, fun _ _ => rfl, ?_, fun id => ?_, fun id member => ?_⟩
  · refine List.map_map.trans (List.map_congr_left fun block member => ?_)
    simp [Function.ofFunction, IR.Function.block?_of_mem unique member]
  · refine (neighbours function.successorsOf id).trans ?_
    split
    · rfl
    · rename_i missing
      refine (List.eq_nil_iff_forall_not_mem.mpr fun next edge => missing ?_).symm
      exact IR.Function.block?_isSome_iff.mp (IR.Function.isSome_of_mem_successorsOf edge)
  · exact (neighbours function.predecessorsOf id).trans (if_pos member)

end Shared

/-- **One round is enough for the functions of modules.**  Where blocks have different numbers, the
optimizer leaves a function in which nothing is left to optimize, and it makes changes in the first
round only.  Both passes report no change behind it, and another run of the optimizer makes none. -/
theorem Optimizer.optimizeFunction_isNormal {optimizer : Optimizer} {level : Int}
    (passes : optimizer.passes = (ofLevel level).passes) (positive : 0 < level)
    (some : 0 < optimizer.maxRounds) {function : Function}
    (unique : (function.blocks.map fun block => block.name.id).Nodup) :
    let last := optimizer.optimizeFunction function
    last.failure = none ∧ (∃ shared, Shared.Mirrors last.function shared ∧ shared.IsNormal) ∧
      last.function.foldConstants.2.changed = false ∧
      last.function.eliminateDeadCode.2 = false ∧
      (∀ change ∈ last.changes, change.round = 0) ∧
      ∀ again : Optimizer, again.passes = optimizer.passes → 0 < again.maxRounds →
        (again.optimizeFunction last.function).changes = [] := by
  have mirrors := Shared.Mirrors.ofFunction unique
  obtain ⟨-, normal, folded, cleared, again, -, reports, -⟩ :=
    Shared.Function.optimize_isNormal positive some mirrors.defined mirrors.proper
  obtain ⟨last, sound, changes⟩ := mirrors.optimizeFunction passes
  refine ⟨sound, ⟨_, last, normal⟩, ?_, ?_, fun change member => ?_, fun other same more => ?_⟩
  · rw [← last.foldConstants.2, folded]
  · rw [← last.eliminateDeadCode.2, cleared]
  · rw [changes] at member
    obtain ⟨⟨report, round⟩, within, made⟩ := List.mem_flatMap.mp member
    cases all : ((Shared.Function.ofFunction function).optimize level optimizer.maxRounds).reports
      with
    | nil => simp [all] at within
    | cons first later =>
        rw [all, List.zipIdx_cons] at within
        rcases List.mem_cons.mp within with isFirst | isLater
        · cases isFirst
          exact Shared.round_of_mem_changesIn made
        · rw [all, List.tail_cons] at reports
          rw [reports report (List.fst_mem_of_mem_zipIdx isLater)] at made
          cases made
  · obtain ⟨-, -, others⟩ := last.optimizeFunction (same.trans passes)
    rw [others, again level other.maxRounds positive more]
    rfl

end ScriptCompiler.IR
