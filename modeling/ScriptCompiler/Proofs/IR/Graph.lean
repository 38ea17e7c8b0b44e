import Mathlib.Data.List.Perm.Basic
import ScriptCompiler.IR.Module

/-!
# Functions as graphs of blocks

How the operations on functions change their blocks.  Everything is said about the block with a
given number: appending changes the code of one block, an edge changes no code, and a new block is
empty.  In a numbered function the blocks have the numbers below the next one, in order.
-/

namespace ScriptCompiler.IR

namespace Function

variable {function : Function} {id other : Nat} {block : Block}

/-- The blocks of the function have the numbers below the next one, in order. -/
def Numbered (function : Function) : Prop :=
  function.blocks.map (fun block => block.name.id) = List.range function.nextBlock

/-- The instructions of the block with a number. -/
def code (function : Function) (id : Nat) : List Instr :=
  ((function.block? id).map Block.instrs).getD []

theorem code_eq (found : function.block? id = some block) : function.code id = block.instrs := by
  simp [code, found]

theorem id_of_block? (found : function.block? id = some block) : block.name.id = id := by
  simpa using List.find?_some found

theorem mem_of_block? (found : function.block? id = some block) : block ∈ function.blocks :=
  List.mem_of_find?_eq_some found

section Unique

theorem Numbered.nodup (numbered : function.Numbered) :
    (function.blocks.map fun block => block.name.id).Nodup := by
  rw [numbered]
  exact List.nodup_range

/-- Where numbers are unique, a block is found by its number. -/
theorem block?_of_mem (unique : (function.blocks.map fun block => block.name.id).Nodup)
    (member : block ∈ function.blocks) : function.block? block.name.id = some block := by
  unfold block?
  generalize function.blocks = blocks at unique member
  induction blocks with
  | nil => cases member
  | cons first rest ih =>
      obtain ⟨fresh, unique⟩ := List.nodup_cons.mp unique
      rcases List.mem_cons.mp member with rfl | later
      · simp
      · have differ : first.name.id ≠ block.name.id := fun same =>
          fresh (List.mem_map.mpr ⟨block, later, same.symm⟩)
        rw [List.find?_cons_of_neg (by simpa using differ)]
        exact ih unique later

theorem Numbered.block?_isSome (numbered : function.Numbered) :
    (function.block? id).isSome ↔ id < function.nextBlock := by
  rw [block?, List.find?_isSome, ← List.mem_range, ← numbered, List.mem_map]
  simp

theorem Numbered.exists_block (numbered : function.Numbered) (below : id < function.nextBlock) :
    ∃ block, function.block? id = some block :=
  Option.isSome_iff_exists.mp (numbered.block?_isSome.mpr below)

theorem Numbered.lt_of_mem (numbered : function.Numbered) (member : block ∈ function.blocks) :
    block.name.id < function.nextBlock := by
  rw [← List.mem_range, ← numbered]
  exact List.mem_map_of_mem member

theorem Numbered.lt_of_block? (numbered : function.Numbered)
    (found : function.block? id = some block) :
    id < function.nextBlock :=
  numbered.block?_isSome.mp (by simp [found])

theorem Numbered.code_of_le (numbered : function.Numbered) (above : function.nextBlock ≤ id) :
    function.code id = [] := by
  have missing : function.block? id = none := by
    rw [← Option.not_isSome_iff_eq_none, numbered.block?_isSome]
    omega
  simp [code, missing]

theorem Numbered.mem_instrs (numbered : function.Numbered) {instr : Instr} :
    instr ∈ function.instrs ↔ ∃ id, instr ∈ function.code id := by
  simp only [instrs, List.mem_flatMap]
  constructor
  · rintro ⟨block, member, within⟩
    exact ⟨block.name.id, by rwa [code_eq (block?_of_mem numbered.nodup member)]⟩
  · rintro ⟨id, within⟩
    cases found : function.block? id with
    | none => simp [code, found] at within
    | some block =>
        rw [code_eq found] at within
        exact ⟨block, mem_of_block? found, within⟩

end Unique

section Modify

variable {change : Block → Block}

theorem block?_modify (keeps : ∀ block, (change block).name = block.name) :
    (function.modify id change).block? other =
      (function.block? other).map fun block => if other = id then change block else block := by
  simp only [modify, block?]
  induction function.blocks with
  | nil => rfl
  | cons first rest ih =>
      have same : (if first.name.id == id then change first else first).name = first.name := by
        split <;> simp [keeps]
      rw [List.map_cons]
      by_cases here : first.name.id = other
      · rw [List.find?_cons_of_pos (by rw [same, here]; simp),
          List.find?_cons_of_pos (by rw [here]; simp)]
        simp [here]
      · rw [List.find?_cons_of_neg (by simp only [same]; simpa using here),
          List.find?_cons_of_neg (by simpa using here)]
        exact ih

end Modify

section Append

variable {instr : Instr}

theorem block?_append :
    (function.append id instr).block? other =
      (function.block? other).map fun block =>
        if other = id then { block with instrs := block.instrs ++ [instr] } else block :=
  block?_modify (by intro block; rfl)

theorem code_append (owned : (function.block? id).isSome) :
    (function.append id instr).code id = function.code id ++ [instr] := by
  obtain ⟨block, found⟩ := Option.isSome_iff_exists.mp owned
  simp [code, block?_append, found]

theorem code_append_of_ne (differ : other ≠ id) :
    (function.append id instr).code other = function.code other := by
  simp [code, block?_append, differ]

theorem map_blocks_append {α : Type} (view : Block → α)
    (keeps : ∀ block instrs, view { block with instrs := instrs } = view block) :
    (function.append id instr).blocks.map view = function.blocks.map view := by
  simp only [Function.append, modify, List.map_map]
  refine List.map_congr_left fun block _ => ?_
  simp only [Function.comp_apply]
  split <;> simp [keeps]

theorem Numbered.append (numbered : function.Numbered) : (function.append id instr).Numbered := by
  unfold Numbered at numbered ⊢
  rw [map_blocks_append _ fun _ _ => rfl]
  exact numbered

/-- Appending adds one instruction to those of the function. -/
theorem instrs_append_perm (function : Function)
    (unique : (function.blocks.map fun block => block.name.id).Nodup)
    (owned : (function.block? id).isSome) :
    (function.append id instr).instrs.Perm (instr :: function.instrs) := by
  unfold block? at owned
  simp only [instrs, Function.append, modify]
  generalize function.blocks = blocks at unique owned
  induction blocks with
  | nil => simp at owned
  | cons first rest ih =>
      obtain ⟨fresh, unique⟩ := List.nodup_cons.mp unique
      by_cases here : first.name.id = id
      · have untouched : rest.map (fun block =>
            if block.name.id == id then { block with instrs := block.instrs ++ [instr] }
              else block) =
            rest := by
          refine (List.map_congr_left fun block member => ?_).trans (List.map_id rest)
          have differ : block.name.id ≠ id := fun same =>
            fresh (List.mem_map.mpr ⟨block, member, same.trans here.symm⟩)
          simp [differ]
        simp only [List.map_cons, here, beq_self_eq_true, if_true, untouched, List.flatMap_cons,
          List.append_assoc, List.singleton_append]
        exact List.perm_middle
      · rw [List.find?_cons_of_neg (by simpa using here)] at owned
        simp only [List.map_cons, beq_iff_eq, here, if_false, List.flatMap_cons] at ih ⊢
        exact ((ih unique owned).append_left _).trans List.perm_middle

end Append

section Edges

variable {source target : BlockName}

/-- The successors of a block with an edge to another block. -/
def withEdge (successors : List BlockName) (target : BlockName) : List BlockName :=
  if successors.any fun name => name.id == target.id then successors else successors ++ [target]

/-- What an edge changes about the block with a number: the successors of its source, and the
predecessors of its target if the edge is new. -/
theorem block?_addEdge (function : Function) (source target : BlockName) (other : Nat) :
    ∃ change : Block → List BlockName, (function.addEdge source target).block? other =
      (function.block? other).map fun block =>
        { block with
          successors :=
            if other = source.id then withEdge block.successors target else block.successors
          predecessors := if other = target.id then change block else block.predecessors } := by
  unfold addEdge
  cases found : function.block? source.id with
  | none =>
      refine ⟨Block.predecessors, ?_⟩
      cases here : function.block? other with
      | none => rfl
      | some block =>
          have differ : other ≠ source.id := fun same => by simp [same, found] at here
          simp [differ]
  | some sourceBlock =>
      by_cases there : sourceBlock.successors.any fun name => name.id == target.id
      · refine ⟨Block.predecessors, ?_⟩
        simp only [there, if_true]
        cases here : function.block? other with
        | none => rfl
        | some block =>
            by_cases same : other = source.id
            · subst same
              obtain rfl : sourceBlock = block := Option.some.inj (found.symm.trans here)
              simp only [withEdge, there, if_true, ite_self, Option.map_some]
            · simp [same]
      · refine ⟨fun block => block.predecessors ++ [source], ?_⟩
        simp only [there, Bool.false_eq_true, if_false]
        rw [block?_modify (by intro block; rfl), block?_modify (by intro block; rfl)]
        cases here : function.block? other with
        | none => rfl
        | some block =>
            simp only [Option.map_some, Option.some.injEq]
            by_cases isSource : other = source.id
            · subst isSource
              obtain rfl : sourceBlock = block := Option.some.inj (found.symm.trans here)
              by_cases isTarget : source.id = target.id <;> simp [withEdge, there, isTarget]
            · simp only [if_neg isSource]
              by_cases isTarget : other = target.id <;> simp [isTarget]

theorem map_blocks_addEdge {α : Type} (function : Function) (source target : BlockName)
    (view : Block → α)
    (keeps : ∀ block successors predecessors,
      view { block with successors := successors, predecessors := predecessors } = view block) :
    (function.addEdge source target).blocks.map view = function.blocks.map view := by
  have modified : ∀ (function : Function) (id : Nat) (change : Block → Block),
      (∀ block, view (change block) = view block) →
        (function.modify id change).blocks.map view = function.blocks.map view := by
    intro function id change same
    simp only [modify, List.map_map]
    refine List.map_congr_left fun block _ => ?_
    simp only [Function.comp_apply]
    split <;> simp [same]
  unfold addEdge
  split
  · rfl
  · split
    · rfl
    · rw [modified _ _ _ fun block => keeps block block.successors _,
        modified _ _ _ fun block => keeps block _ block.predecessors]

@[simp]
theorem code_addEdge : (function.addEdge source target).code id = function.code id := by
  obtain ⟨change, changed⟩ := block?_addEdge function source target id
  rw [code, changed, code, Option.map_map]
  rfl

@[simp]
theorem instrs_addEdge : (function.addEdge source target).instrs = function.instrs := by
  have same := function.map_blocks_addEdge source target Block.instrs fun _ _ _ => rfl
  rw [instrs, List.flatMap_def, same, instrs, List.flatMap_def]

/-- Edges change nothing but the lists of neighbours. -/
theorem addEdge_eq (function : Function) (source target : BlockName) :
    ∃ blocks, function.addEdge source target = { function with blocks := blocks } := by
  unfold addEdge
  split
  · exact ⟨_, rfl⟩
  · split
    · exact ⟨_, rfl⟩
    · exact ⟨_, rfl⟩

@[simp]
theorem addEdge_nextBlock :
    (function.addEdge source target).nextBlock = function.nextBlock := by
  obtain ⟨blocks, same⟩ := function.addEdge_eq source target
  rw [same]

@[simp]
theorem addEdge_nextValue :
    (function.addEdge source target).nextValue = function.nextValue := by
  obtain ⟨blocks, same⟩ := function.addEdge_eq source target
  rw [same]

@[simp]
theorem addEdge_params : (function.addEdge source target).params = function.params := by
  obtain ⟨blocks, same⟩ := function.addEdge_eq source target
  rw [same]

@[simp]
theorem addEdge_result : (function.addEdge source target).result = function.result := by
  obtain ⟨blocks, same⟩ := function.addEdge_eq source target
  rw [same]

@[simp]
theorem addEdge_name : (function.addEdge source target).name = function.name := by
  obtain ⟨blocks, same⟩ := function.addEdge_eq source target
  rw [same]

@[simp]
theorem addEdge_requests : (function.addEdge source target).requests = function.requests := by
  obtain ⟨blocks, same⟩ := function.addEdge_eq source target
  rw [same]

theorem Numbered.addEdge (numbered : function.Numbered) :
    (function.addEdge source target).Numbered := by
  unfold Numbered at numbered ⊢
  rw [map_blocks_addEdge _ _ _ (fun block => block.name.id) fun _ _ _ => rfl, numbered,
    addEdge_nextBlock]

end Edges

section NewBlock

variable {label : Bytes}

theorem block?_newBlock (numbered : function.Numbered) :
    (function.newBlock label).2.block? id =
      if id = function.nextBlock then
        some { name := (function.newBlock label).1, index := function.blocks.length }
      else function.block? id := by
  simp only [newBlock, block?, List.find?_append]
  by_cases new : id = function.nextBlock
  · have missing : function.block? id = none := by
      rw [← Option.not_isSome_iff_eq_none, numbered.block?_isSome]
      omega
    rw [block?] at missing
    subst new
    simp [missing]
  · have differ : ¬ function.nextBlock = id := fun same => new same.symm
    simp [new, differ]

@[simp]
theorem code_newBlock : (function.newBlock label).2.code id = function.code id := by
  simp only [code, newBlock, block?, List.find?_append]
  cases function.blocks.find? fun block => block.name.id == id with
  | some block => rfl
  | none =>
      rw [Option.none_or, List.find?_singleton]
      split <;> rfl

theorem Numbered.newBlock (numbered : function.Numbered) :
    (function.newBlock label).2.Numbered := by
  unfold Numbered at numbered ⊢
  simp only [Function.newBlock, List.map_append, numbered, List.map_cons, List.map_nil,
    List.range_succ]

@[simp]
theorem instrs_newBlock : (function.newBlock label).2.instrs = function.instrs := by
  simp [instrs, Function.newBlock]

end NewBlock

section Open

/-- A block is open when it is there and does not end in a terminator. -/
theorem isOpen_iff :
    function.isOpen id = true ↔
      (function.block? id).isSome ∧ ∀ instr ∈ (function.code id).getLast?, instr.isTerminator =
        false := by
  unfold isOpen code
  cases function.block? id with
  | none => simp
  | some block =>
      simp only [Block.isTerminated, Block.terminator?, Option.isSome_filter, Bool.not_eq_true',
        Option.isSome_some, true_and, Option.map_some, Option.getD_some]
      cases block.instrs.getLast? with
      | none => simp
      | some instr => simp

/-- Openness is a matter of the code alone. -/
theorem isOpen_congr {other : Function}
    (owned : (other.block? id).isSome = (function.block? id).isSome)
    (codes : other.code id = function.code id) : other.isOpen id = function.isOpen id := by
  rw [Bool.eq_iff_iff, isOpen_iff, isOpen_iff, owned, codes]

end Open

end Function

end ScriptCompiler.IR
