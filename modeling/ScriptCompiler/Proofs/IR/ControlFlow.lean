import Mathlib.Data.List.Forall2
import Mathlib.Data.List.Nodup
import Mathlib.Logic.Relation
import ScriptCompiler.Optimize.DeadCode
import ScriptCompiler.Proofs.IR.Graph
import ScriptCompiler.Proofs.IR.Verification

/-!
# The control-flow graph of a function

Every edge is written down three times: in the code of its source, in the list of successors of its
source and in the list of predecessors of its target.  A function is linked if the two lists agree,
and wired if they agree with the code as well.  This module says how the operations on functions
change what is written down.
-/

namespace ScriptCompiler.IR

section Lists

/-- What stands on the right of a list relation has a counterpart on the left. -/
theorem exists_of_forall₂ {α β : Type} {related : α → β → Prop} {left : List α} {right : List β}
    (each : List.Forall₂ related left right) {item : β} (member : item ∈ right) :
    ∃ other ∈ left, related other item := by
  induction each with
  | nil => cases member
  | cons first _ ih =>
      rcases List.mem_cons.mp member with rfl | later
      · exact ⟨_, List.mem_cons_self, first⟩
      · obtain ⟨other, within, holds⟩ := ih later
        exact ⟨other, List.mem_cons_of_mem _ within, holds⟩

/-- Lists whose members look the same look the same. -/
theorem map_eq_of_forall₂ {α β : Type} {related : α → α → Prop} {left right : List α} (view : α → β)
    (each : List.Forall₂ related left right)
    (same : ∀ item partner, related item partner → view partner = view item) :
    right.map view = left.map view := by
  induction each with
  | nil => rfl
  | cons first _ ih => rw [List.map_cons, List.map_cons, same _ _ first, ih]

/-- A list relation can be weakened member by member. -/
theorem forall₂_imp_mem {α β : Type} {related other : α → β → Prop} {left : List α} {right : List β}
    (each : List.Forall₂ related left right)
    (weaker : ∀ item ∈ left, ∀ partner, related item partner → other item partner) :
    List.Forall₂ other left right := by
  induction each with
  | nil => exact .nil
  | cons first _ ih =>
      exact .cons (weaker _ List.mem_cons_self _ first)
        (ih fun item member => weaker item (List.mem_cons_of_mem _ member))

end Lists

/-- The numbers of the blocks that instructions may go on in. -/
def targetIds (instrs : List Instr) : List Nat :=
  instrs.flatMap fun instr => instr.targets.map BlockName.id

theorem targetIds_append (first second : List Instr) :
    targetIds (first ++ second) = targetIds first ++ targetIds second :=
  List.flatMap_append

theorem mem_targetIds {instrs : List Instr} {id : Nat} :
    id ∈ targetIds instrs ↔ ∃ instr ∈ instrs, ∃ target ∈ instr.targets, target.id = id := by
  simp [targetIds]

/-- Only terminators go on in other blocks. -/
theorem Instr.targets_eq_nil {instr : Instr} (inner : instr.isTerminator = false) :
    instr.targets = [] := by
  cases instr with
  | jump | branch | ret => cases inner
  | binary | unary | copy | alloca | load | store | call => rfl

theorem targetIds_of_inner {instrs : List Instr}
    (inner : ∀ instr ∈ instrs, instr.isTerminator = false) :
    targetIds instrs = [] :=
  List.flatMap_eq_nil_iff.mpr fun instr member => by
    rw [Instr.targets_eq_nil (inner instr member), List.map_nil]

/-- The numbers of an edge. -/
def edgeIds (edge : BlockName × BlockName) : Nat × Nat := (edge.1.id, edge.2.id)

namespace Function

/-- The numbers of the blocks that control may come from before the block with a number. -/
def predecessorsOf (function : Function) (id : Nat) : List Nat :=
  match function.block? id with
  | some block => block.predecessors.map BlockName.id
  | none => []

/-- The numbers of the blocks that the code of the block with a number may go on in. -/
def targetsOf (function : Function) (id : Nat) : List Nat := targetIds (function.code id)

/-- The blocks that control can get to from the entry by way of terminators. -/
def Reaches (function : Function) (id : Nat) : Prop :=
  Relation.ReflTransGen (fun source target => target ∈ function.targetsOf source) entry id

/-- The two lists of every edge agree, and every block knows its place. -/
structure Linked (function : Function) : Prop where
  /-- The numbers of blocks are unique. -/
  unique : (function.blocks.map fun block => block.name.id).Nodup
  /-- The entry comes first. -/
  first : (function.blocks.map fun block => block.name.id).head? = some entry
  /-- Every block knows its place. -/
  places : function.blocks.map Block.index = List.range function.blocks.length
  /-- Successors are listed once. -/
  successors_nodup : ∀ id, (function.successorsOf id).Nodup
  /-- Predecessors are listed once. -/
  predecessors_nodup : ∀ id, (function.predecessorsOf id).Nodup
  /-- An edge that leaves a block arrives at one. -/
  agree : ∀ source target, target ∈ function.successorsOf source ↔
    source ∈ function.predecessorsOf target

/-- The edges are those that the code takes. -/
structure Wired (function : Function) : Prop extends function.Linked where
  /-- The successors are the targets of the code. -/
  jumps : ∀ id target, target ∈ function.successorsOf id ↔ target ∈ function.targetsOf id

variable {function other : Function} {id : Nat} {block : Block}

section Views

theorem successorsOf_eq (found : function.block? id = some block) :
    function.successorsOf id = block.successors.map BlockName.id := by
  simp [successorsOf, found]

theorem predecessorsOf_eq (found : function.block? id = some block) :
    function.predecessorsOf id = block.predecessors.map BlockName.id := by
  simp [predecessorsOf, found]

theorem mem_instrs_of_code {instr : Instr} (member : instr ∈ function.code id) :
    instr ∈ function.instrs := by
  cases found : function.block? id with
  | none => simp [code, found] at member
  | some block =>
      rw [code_eq found] at member
      exact List.mem_flatMap.mpr ⟨block, mem_of_block? found, member⟩

theorem isSome_of_mem_successorsOf {target : Nat} (member : target ∈ function.successorsOf id) :
    (function.block? id).isSome := by
  cases found : function.block? id with
  | none => simp [successorsOf, found] at member
  | some block => rfl

theorem isSome_of_mem_predecessorsOf {source : Nat} (member : source ∈ function.predecessorsOf id) :
    (function.block? id).isSome := by
  cases found : function.block? id with
  | none => simp [predecessorsOf, found] at member
  | some block => rfl

/-- The numbers of the blocks tell which blocks are there. -/
theorem block?_isSome_iff :
    (function.block? id).isSome ↔ id ∈ function.blocks.map fun block => block.name.id := by
  rw [block?, List.find?_isSome, List.mem_map]
  simp

/-- The instructions of a function are those of its blocks. -/
theorem mem_instrs_iff (unique : (function.blocks.map fun block => block.name.id).Nodup)
    {instr : Instr} :
    instr ∈ function.instrs ↔ ∃ id, instr ∈ function.code id := by
  constructor
  · intro member
    obtain ⟨block, within, inside⟩ := List.mem_flatMap.mp member
    exact ⟨block.name.id, by rwa [code_eq (block?_of_mem unique within)]⟩
  · rintro ⟨id, member⟩
    exact mem_instrs_of_code member

/-- What is seen of the block with a number can be seen in the list of blocks. -/
theorem map_block? {α : Type} (view : Block → α) (number : α → Nat)
    (shows : ∀ block, number (view block) = block.name.id) :
    (function.block? id).map view =
      (function.blocks.map view).find? fun seen => number seen == id := by
  rw [block?, List.find?_map]
  congr 2
  funext block
  simp [shows]

/-- Functions whose blocks look the same have the same blocks under every number. -/
theorem map_block?_congr {α : Type} (view : Block → α) (number : α → Nat) (id : Nat)
    (shows : ∀ block, number (view block) = block.name.id)
    (same : other.blocks.map view = function.blocks.map view) :
    (other.block? id).map view = (function.block? id).map view := by
  rw [map_block? view number shows, same, map_block? view number shows]

/-- Blocks that look the same but for the code have the same neighbours. -/
theorem neighbours_congr
    (same : (other.blocks.map fun block => (block.name.id, block.successors, block.predecessors)) =
      function.blocks.map fun block => (block.name.id, block.successors, block.predecessors)) :
    other.successorsOf id = function.successorsOf id ∧
      other.predecessorsOf id = function.predecessorsOf id := by
  have equal := map_block?_congr _ Prod.fst id (fun _ => rfl) same
  unfold successorsOf predecessorsOf
  cases found : function.block? id <;> cases there : other.block? id <;>
    simp_all only [Option.map_some, Option.map_none, Option.some.injEq, Prod.mk.injEq, reduceCtorEq,
      and_self]

/-- Blocks that look the same but for the neighbours have the same code. -/
theorem code_congr
    (same : (other.blocks.map fun block => (block.name.id, block.instrs)) =
      function.blocks.map fun block => (block.name.id, block.instrs)) :
    other.code id = function.code id := by
  have equal := map_block?_congr _ Prod.fst id (fun _ => rfl) same
  unfold code
  cases found : function.block? id <;> cases there : other.block? id <;>
    simp_all only [Option.map_some, Option.map_none, Option.some.injEq, Prod.mk.injEq, reduceCtorEq]

end Views

namespace Linked

theorem entry_isSome (linked : function.Linked) : (function.block? entry).isSome :=
  block?_isSome_iff.mpr (List.mem_of_mem_head? linked.first)

/-- Both ends of an edge are blocks of the function. -/
theorem target_isSome (linked : function.Linked) {source target : Nat}
    (edge : target ∈ function.successorsOf source) : (function.block? target).isSome :=
  isSome_of_mem_predecessorsOf ((linked.agree source target).mp edge)

theorem source_isSome (linked : function.Linked) {source target : Nat}
    (edge : source ∈ function.predecessorsOf target) : (function.block? source).isSome :=
  isSome_of_mem_successorsOf ((linked.agree source target).mpr edge)

/-- A function stays linked if its blocks keep their numbers and places and its edges agree. -/
theorem of_frame (linked : function.Linked)
    (ids : (other.blocks.map fun block => block.name.id) =
      function.blocks.map fun block => block.name.id)
    (places : other.blocks.map Block.index = function.blocks.map Block.index)
    (successors_nodup : ∀ id, (other.successorsOf id).Nodup)
    (predecessors_nodup : ∀ id, (other.predecessorsOf id).Nodup)
    (agree : ∀ source target,
      target ∈ other.successorsOf source ↔ source ∈ other.predecessorsOf target) :
      other.Linked where
  unique := ids ▸ linked.unique
  first := ids ▸ linked.first
  places := by
    have lengths := congrArg List.length ids
    simp only [List.length_map] at lengths
    rw [places, linked.places, lengths]
  successors_nodup := successors_nodup
  predecessors_nodup := predecessors_nodup
  agree := agree

/-- A function stays linked if only its code changes. -/
theorem congr (linked : function.Linked)
    (places : other.blocks.map Block.index = function.blocks.map Block.index)
    (same : (other.blocks.map fun block => (block.name.id, block.successors, block.predecessors)) =
      function.blocks.map fun block => (block.name.id, block.successors, block.predecessors)) :
    other.Linked := by
  have ids := congrArg (List.map Prod.fst) same
  simp only [List.map_map] at ids
  refine linked.of_frame ids places (fun id => ?_) (fun id => ?_) fun source target => ?_
  · exact (neighbours_congr same).1 ▸ linked.successors_nodup id
  · exact (neighbours_congr same).2 ▸ linked.predecessors_nodup id
  · rw [(neighbours_congr same).1, (neighbours_congr same).2]
    exact linked.agree source target

end Linked

section AddEdge

variable {source target : BlockName}

/-- An edge that is there already stays as it is. -/
theorem addEdge_of_mem (there : target.id ∈ function.successorsOf source.id) :
    function.addEdge source target = function := by
  obtain ⟨block, found⟩ := Option.isSome_iff_exists.mp (isSome_of_mem_successorsOf there)
  rw [successorsOf_eq found, List.mem_map] at there
  obtain ⟨name, member, same⟩ := there
  have listed : (block.successors.any fun name => name.id == target.id) = true :=
    List.any_eq_true.mpr ⟨name, member, by simpa using same⟩
  simp [addEdge, found, listed]

/-- What a new edge changes about the block with a number. -/
theorem block?_addEdge_new (owned : (function.block? source.id).isSome)
    (new : target.id ∉ function.successorsOf source.id) :
    (function.addEdge source target).block? id = (function.block? id).map fun block =>
      { block with
        successors := if id = source.id then block.successors ++ [target] else block.successors
        predecessors :=
          if id = target.id then block.predecessors ++ [source] else block.predecessors } := by
  obtain ⟨start, found⟩ := Option.isSome_iff_exists.mp owned
  have unlisted : (start.successors.any fun name => name.id == target.id) = false := by
    rw [successorsOf_eq found, List.mem_map] at new
    simpa using new
  rw [addEdge, found]
  simp only [unlisted, Bool.false_eq_true, if_false]
  rw [block?_modify (by intro block; rfl), block?_modify (by intro block; rfl), Option.map_map]
  congr 1
  funext block
  simp only [Function.comp_apply]
  split_ifs <;> rfl

theorem successorsOf_addEdge_new (owned : (function.block? source.id).isSome)
    (new : target.id ∉ function.successorsOf source.id) :
    (function.addEdge source target).successorsOf id =
      function.successorsOf id ++ if id = source.id then [target.id] else [] := by
  unfold successorsOf
  rw [block?_addEdge_new owned new]
  cases found : function.block? id with
  | none =>
      have differ : id ≠ source.id := fun same => by simp [← same, found] at owned
      simp [differ]
  | some block => by_cases same : id = source.id <;> simp [same]

theorem predecessorsOf_addEdge_new (owned : (function.block? source.id).isSome)
    (target_owned : (function.block? target.id).isSome)
    (new : target.id ∉ function.successorsOf source.id) :
    (function.addEdge source target).predecessorsOf id =
      function.predecessorsOf id ++ if id = target.id then [source.id] else [] := by
  unfold predecessorsOf
  rw [block?_addEdge_new owned new]
  cases found : function.block? id with
  | none =>
      have differ : id ≠ target.id := fun same => by simp [← same, found] at target_owned
      simp [differ]
  | some block => by_cases same : id = target.id <;> simp [same]

theorem mem_successorsOf_addEdge (owned : (function.block? source.id).isSome) {next : Nat} :
    next ∈ (function.addEdge source target).successorsOf id ↔
      next ∈ function.successorsOf id ∨ (id = source.id ∧ next = target.id) := by
  by_cases there : target.id ∈ function.successorsOf source.id
  · rw [addEdge_of_mem there]
    constructor
    · exact .inl
    · rintro (old | ⟨rfl, rfl⟩)
      · exact old
      · exact there
  · rw [successorsOf_addEdge_new owned there, List.mem_append]
    split <;> simp [*]

/-- A new edge between blocks of a linked function leaves it linked. -/
theorem Linked.addEdge (linked : function.Linked) (owned : (function.block? source.id).isSome)
    (target_owned : (function.block? target.id).isSome) :
    (function.addEdge source target).Linked := by
  by_cases there : target.id ∈ function.successorsOf source.id
  · rwa [addEdge_of_mem there]
  · refine linked.of_frame (map_blocks_addEdge _ _ _ _ fun _ _ _ => rfl)
      (map_blocks_addEdge _ _ _ _ fun _ _ _ => rfl) (fun id => ?_) (fun id => ?_)
      fun from_ to_ => ?_
    · rw [successorsOf_addEdge_new owned there]
      split
      · rename_i same
        subst same
        exact List.Nodup.append (linked.successors_nodup _) (List.nodup_singleton _)
          (List.disjoint_singleton.mpr there)
      · simpa using linked.successors_nodup id
    · rw [predecessorsOf_addEdge_new owned target_owned there]
      split
      · rename_i same
        subst same
        refine List.Nodup.append (linked.predecessors_nodup _) (List.nodup_singleton _) ?_
        exact List.disjoint_singleton.mpr fun edge => there ((linked.agree _ _).mpr edge)
      · simpa using linked.predecessors_nodup id
    · rw [successorsOf_addEdge_new owned there, predecessorsOf_addEdge_new owned target_owned there,
        List.mem_append, List.mem_append, linked.agree]
      by_cases isSource : from_ = source.id <;> by_cases isTarget : to_ = target.id <;>
        simp [isSource, isTarget]

end AddEdge

section Building

variable {instr : Instr} {label : Bytes}

/-- A function with an empty entry block is wired. -/
theorem ofSignature_wired (name : Bytes) (params : List (Bytes × BasicType)) (result : BasicType) :
    (ofSignature name params result).Wired := by
  have alone : ∀ id, (ofSignature name params result).successorsOf id = [] ∧
      (ofSignature name params result).predecessorsOf id = [] ∧
      (ofSignature name params result).targetsOf id = [] := by
    intro id
    unfold successorsOf predecessorsOf targetsOf code
    cases found : (ofSignature name params result).block? id with
    | none => exact ⟨rfl, rfl, rfl⟩
    | some block =>
        obtain rfl := List.mem_singleton.mp (mem_of_block? found)
        exact ⟨rfl, rfl, rfl⟩
  refine ⟨⟨List.nodup_singleton _, rfl, rfl, fun id => ?_, fun id => ?_, fun source target => ?_⟩,
    fun id target => ?_⟩
  · rw [(alone id).1]
    exact List.nodup_nil
  · rw [(alone id).2.1]
    exact List.nodup_nil
  · rw [(alone source).1, (alone target).2.1]
    simp
  · rw [(alone id).1, (alone id).2.2]

/-- The number of the next value has nothing to do with the graph. -/
theorem Wired.withNextValue (wired : function.Wired) (number : Nat) :
    Wired { function with nextValue := number } :=
  ⟨wired.toLinked.congr rfl rfl, wired.jumps⟩

theorem Linked.append (linked : function.Linked) : (function.append id instr).Linked :=
  linked.congr (map_blocks_append _ fun _ _ => rfl) (map_blocks_append _ fun _ _ => rfl)

theorem successorsOf_append {other : Nat} :
    (function.append id instr).successorsOf other = function.successorsOf other :=
  (neighbours_congr (map_blocks_append _ fun _ _ => rfl)).1

/-- A new block has no edges. -/
theorem Wired.newBlock (wired : function.Wired) (numbered : function.Numbered) :
    (function.newBlock label).2.Wired := by
  have old : ∀ id, (function.newBlock label).2.successorsOf id = function.successorsOf id ∧
      (function.newBlock label).2.predecessorsOf id = function.predecessorsOf id := by
    intro id
    unfold successorsOf predecessorsOf
    rw [block?_newBlock numbered]
    by_cases new : id = function.nextBlock
    · have missing : function.block? id = none := by
        rw [← Option.not_isSome_iff_eq_none, numbered.block?_isSome]
        omega
      simp [if_pos new, missing]
    · simp [new]
  refine ⟨⟨numbered.newBlock.nodup, ?_, ?_, fun id => ?_, fun id => ?_, fun source target => ?_⟩,
    fun id target => ?_⟩
  · simp only [Function.newBlock, List.map_append, List.head?_append, wired.first, Option.some_or]
  · simp only [Function.newBlock, List.map_append, wired.places, List.map_cons, List.map_nil,
      List.length_append, List.length_singleton, List.range_succ]
  · exact (old id).1 ▸ wired.successors_nodup id
  · exact (old id).2 ▸ wired.predecessors_nodup id
  · rw [(old source).1, (old target).2]
    exact wired.agree source target
  · rw [(old id).1, targetsOf, code_newBlock]
    exact wired.jumps id target

end Building

section RemoveEdges

/-- Forget edges one after the other. -/
def removeEdges (function : Function) (edges : List (BlockName × BlockName)) : Function :=
  edges.foldl (fun function edge => function.removeEdge edge.1 edge.2) function

variable (edges : List (BlockName × BlockName))

theorem map_blocks_removeEdge {α : Type} (function : Function) (source target : BlockName)
    (view : Block → α)
    (keeps : ∀ block successors predecessors,
      view { block with successors := successors, predecessors := predecessors } = view block) :
    (function.removeEdge source target).blocks.map view = function.blocks.map view := by
  simp only [removeEdge, modify, List.map_map]
  refine List.map_congr_left fun block _ => ?_
  simp only [Function.comp_apply]
  split <;> split <;> simp only [keeps block _ block.predecessors, keeps _ _ _]

/-- Forgetting edges changes the lists of neighbours alone. -/
theorem map_blocks_removeEdges {α : Type} (function : Function) (view : Block → α)
    (keeps : ∀ block successors predecessors,
      view { block with successors := successors, predecessors := predecessors } = view block) :
    (function.removeEdges edges).blocks.map view = function.blocks.map view := by
  induction edges generalizing function with
  | nil => rfl
  | cons edge rest ih =>
      exact (ih (function.removeEdge edge.1 edge.2)).trans (map_blocks_removeEdge _ _ _ view keeps)

theorem code_removeEdges (function : Function) :
    (function.removeEdges edges).code id = function.code id :=
  code_congr (map_blocks_removeEdges edges _ _ fun _ _ _ => rfl)

theorem block?_removeEdge (function : Function) (source target : BlockName) :
    (function.removeEdge source target).block? id = (function.block? id).map fun block =>
      { block with
        successors :=
          if id = source.id then block.successors.filter fun name => name.id != target.id
          else block.successors
        predecessors := if id = target.id then
            block.predecessors.filter fun name => name.id != source.id
          else block.predecessors } := by
  rw [removeEdge, block?_modify (by intro block; rfl), block?_modify (by intro block; rfl),
    Option.map_map]
  congr 1
  funext block
  simp only [Function.comp_apply]
  split_ifs <;> rfl

theorem successorsOf_removeEdge (function : Function) (source target : BlockName) :
    (function.removeEdge source target).successorsOf id =
      (function.successorsOf id).filter fun next => (id, next) ≠ (source.id, target.id) := by
  unfold successorsOf
  rw [block?_removeEdge]
  cases function.block? id with
  | none => rfl
  | some block =>
      by_cases same : id = source.id
      · simp only [Option.map_some, same, if_true, List.filter_map]
        congr 2
        funext name
        simp [bne, BEq.beq]
      · simp [same]

theorem predecessorsOf_removeEdge (function : Function) (source target : BlockName) :
    (function.removeEdge source target).predecessorsOf id =
      (function.predecessorsOf id).filter fun last => (last, id) ≠ (source.id, target.id) := by
  unfold predecessorsOf
  rw [block?_removeEdge]
  cases function.block? id with
  | none => rfl
  | some block =>
      by_cases same : id = target.id
      · simp only [Option.map_some, same, if_true, List.filter_map]
        congr 2
        funext name
        simp [bne, BEq.beq]
      · simp [same]

theorem successorsOf_removeEdges (function : Function) :
    (function.removeEdges edges).successorsOf id =
      (function.successorsOf id).filter fun next => (id, next) ∉ edges.map edgeIds := by
  induction edges generalizing function with
  | nil => simp [removeEdges]
  | cons edge rest ih =>
      rw [removeEdges, List.foldl_cons, ← removeEdges, ih, successorsOf_removeEdge,
        List.filter_filter]
      congr 1
      funext next
      rw [List.map_cons, ← Bool.decide_and, decide_eq_decide, List.mem_cons, not_or, and_comm]
      rfl

theorem predecessorsOf_removeEdges (function : Function) :
    (function.removeEdges edges).predecessorsOf id =
      (function.predecessorsOf id).filter fun last => (last, id) ∉ edges.map edgeIds := by
  induction edges generalizing function with
  | nil => simp [removeEdges]
  | cons edge rest ih =>
      rw [removeEdges, List.foldl_cons, ← removeEdges, ih, predecessorsOf_removeEdge,
        List.filter_filter]
      congr 1
      funext last
      rw [List.map_cons, ← Bool.decide_and, decide_eq_decide, List.mem_cons, not_or, and_comm]
      rfl

/-- A linked function stays linked when edges are forgotten. -/
theorem Linked.removeEdges (linked : function.Linked) : (function.removeEdges edges).Linked := by
  refine linked.of_frame (map_blocks_removeEdges edges _ _ fun _ _ _ => rfl)
    (map_blocks_removeEdges edges _ _ fun _ _ _ => rfl) (fun id => ?_) (fun id => ?_)
    fun source target => ?_
  · rw [successorsOf_removeEdges]
    exact (linked.successors_nodup id).filter _
  · rw [predecessorsOf_removeEdges]
    exact (linked.predecessors_nodup id).filter _
  · rw [successorsOf_removeEdges, predecessorsOf_removeEdges, List.mem_filter, List.mem_filter,
      linked.agree]

end RemoveEdges

section Restrict

/-- The function with those of its blocks whose numbers satisfy a test. -/
def restrict (function : Function) (live : Nat → Bool) : Function :=
  { function with blocks := function.blocks.filter fun block => live block.name.id }

variable (live : Nat → Bool)

theorem block?_restrict : (function.restrict live).block? id = if live id then
    function.block? id else none := by
  simp only [restrict, block?, List.find?_filter]
  by_cases kept : live id = true
  · rw [if_pos kept]
    congr 1
    funext block
    by_cases same : block.name.id = id <;> simp [same, kept]
  · rw [if_neg kept, List.find?_eq_none]
    intro block _
    by_cases same : block.name.id = id <;> simp [same, kept]

theorem successorsOf_restrict :
    (function.restrict live).successorsOf id = if live id then
      function.successorsOf id else [] := by
  unfold successorsOf
  rw [block?_restrict]
  split <;> simp_all

theorem predecessorsOf_restrict :
    (function.restrict live).predecessorsOf id =
      if live id then function.predecessorsOf id else [] := by
  unfold predecessorsOf
  rw [block?_restrict]
  split <;> simp_all

theorem code_restrict :
    (function.restrict live).code id = if live id then function.code id else [] := by
  unfold code
  rw [block?_restrict]
  split <;> simp_all

/-- What is seen of a block without regard to its place stays. -/
theorem map_blocks_renumber {α : Type} (view : Block → α)
    (keeps : ∀ block index, view { block with index := index } = view block) :
    function.renumber.blocks.map view = function.blocks.map view := by
  refine List.ext_getElem (by simp [renumber]) fun index _ _ => ?_
  simp [renumber, keeps]

theorem renumber_places :
    function.renumber.blocks.map Block.index = List.range function.blocks.length := by
  refine List.ext_getElem (by simp [renumber]) fun index _ _ => ?_
  simp [renumber]

/-- What is left of the code when edges are forgotten and blocks are left out. -/
theorem code_restrict_renumber (edges : List (BlockName × BlockName)) (id : Nat) :
    ((function.removeEdges edges).restrict live).renumber.code id =
      if live id then function.code id else [] := by
  refine (code_congr (map_blocks_renumber _ fun _ _ => rfl)).trans ((code_restrict live).trans ?_)
  rw [code_removeEdges]

/-- Blocks can be left out if no edge leads from a block that is kept to one that is not or back. -/
theorem Linked.restrict_renumber (linked : function.Linked) (entry_live : live entry = true)
    (closed : ∀ source target, target ∈ function.successorsOf source →
      (live source = true ↔ live target = true)) :
    (function.restrict live).renumber.Linked := by
  have neighbours : ∀ id, (function.restrict live).renumber.successorsOf id =
        (if live id then function.successorsOf id else []) ∧
      (function.restrict live).renumber.predecessorsOf id =
        if live id then function.predecessorsOf id else [] := by
    intro id
    rw [← successorsOf_restrict, ← predecessorsOf_restrict]
    exact neighbours_congr (map_blocks_renumber _ fun _ _ => rfl)
  have ids : ((function.restrict live).renumber.blocks.map fun block => block.name.id) =
      (function.restrict live).blocks.map fun block => block.name.id :=
    map_blocks_renumber _ fun _ _ => rfl
  have kept : ((function.restrict live).blocks.map fun block => block.name.id) =
      (function.blocks.map fun block => block.name.id).filter live := by
    rw [restrict, List.filter_map]
    rfl
  refine ⟨?_, ?_, ?_, fun id => ?_, fun id => ?_, fun source target => ?_⟩
  · rw [ids, kept]
    exact linked.unique.filter _
  · rw [ids, kept]
    obtain ⟨rest, split⟩ := List.head?_eq_some_iff.mp linked.first
    rw [split, List.filter_cons_of_pos entry_live, List.head?_cons]
  · rw [renumber_places]
    simp [renumber]
  · rw [(neighbours id).1]
    split
    · exact linked.successors_nodup id
    · exact List.nodup_nil
  · rw [(neighbours id).2]
    split
    · exact linked.predecessors_nodup id
    · exact List.nodup_nil
  · rw [(neighbours source).1, (neighbours target).2]
    constructor
    · intro edge
      split at edge
      · rename_i alive
        rw [if_pos ((closed source target edge).mp alive)]
        exact (linked.agree source target).mp edge
      · cases edge
    · intro edge
      split at edge
      · rename_i alive
        have forward := (linked.agree source target).mpr edge
        rwa [if_pos ((closed source target forward).mpr alive)]
      · cases edge

end Restrict

/-- The control-flow graph of a function as its blocks write it down: the entry comes first, every
block knows its place, and each edge is found in the terminator of its source, in one entry among
the successors of its source and in one entry among the predecessors of its target. -/
structure Consistent (function : Function) : Prop where
  /-- The numbers of blocks tell them apart. -/
  unique : (function.blocks.map fun block => block.name.id).Nodup
  /-- The entry comes first. -/
  first : ∃ block rest, function.blocks = block :: rest ∧ function.block? entry = some block
  /-- Every block knows its place. -/
  places : ∀ (place : Nat) (block : Block), function.blocks[place]? = some block →
    block.index = place
  /-- Successors are listed once. -/
  successors_nodup : ∀ block ∈ function.blocks, (block.successors.map BlockName.id).Nodup
  /-- The successors are the targets of the terminator. -/
  successors_iff : ∀ block ∈ function.blocks, ∀ id, id ∈ block.successors.map BlockName.id ↔
    ∃ terminator ∈ block.terminator?, id ∈ terminator.targets.map BlockName.id
  /-- Predecessors are listed once. -/
  predecessors_nodup : ∀ block ∈ function.blocks, (block.predecessors.map BlockName.id).Nodup
  /-- A block is a predecessor of its successors and of no others. -/
  agree : ∀ source ∈ function.blocks, ∀ target ∈ function.blocks,
    target.name.id ∈ source.successors.map BlockName.id ↔
      source.name.id ∈ target.predecessors.map BlockName.id
  /-- Successors are blocks of the function. -/
  successors_owned : ∀ block ∈ function.blocks, ∀ name ∈ block.successors,
    ∃ other ∈ function.blocks, other.name.id = name.id
  /-- Predecessors are blocks of the function. -/
  predecessors_owned : ∀ block ∈ function.blocks, ∀ name ∈ block.predecessors,
    ∃ other ∈ function.blocks, other.name.id = name.id

/-- The targets of a well-shaped block that has ended are those of its terminator. -/
theorem mem_targetIds_terminator (shaped : Shaped block.instrs)
    (terminated : block.isTerminated = true) :
    id ∈ targetIds block.instrs ↔
      ∃ terminator ∈ block.terminator?, id ∈ terminator.targets.map BlockName.id := by
  obtain ⟨body, last, split, isTerminator⟩ := Block.isTerminated_iff.mp terminated
  rw [split] at shaped
  have inner := targetIds_of_inner (shaped_append_singleton.mp shaped)
  rw [Block.terminator?, split, targetIds_append, inner]
  simp [targetIds, isTerminator, Option.filter]

/-- A wired, well-formed function has a consistent control-flow graph. -/
theorem Wired.consistent (wired : function.Wired) {known : Callee → Bool}
    (wellFormed : function.violations known = []) : function.Consistent := by
  have found : ∀ {block}, block ∈ function.blocks → function.block? block.name.id = some block :=
    fun member => block?_of_mem wired.unique member
  have owner : ∀ {id}, (function.block? id).isSome → ∃ other ∈ function.blocks,
    other.name.id = id := by
    intro id owned
    obtain ⟨other, there⟩ := Option.isSome_iff_exists.mp owned
    exact ⟨other, mem_of_block? there, id_of_block? there⟩
  refine ⟨wired.unique, ?_, fun place block there => ?_, fun block member => ?_,
    fun block member id => ?_, fun block member => ?_, fun source member target member' => ?_,
    fun block member name within => ?_, fun block member name within => ?_⟩
  · have first := wired.first
    cases blocks : function.blocks with
    | nil => simp [blocks] at first
    | cons block rest =>
        simp only [blocks, List.map_cons, List.head?_cons, Option.some.injEq] at first
        exact ⟨block, rest, rfl, first ▸ found (blocks ▸ List.mem_cons_self)⟩
  · have listed : (function.blocks.map Block.index)[place]? = some block.index := by
      rw [List.getElem?_map, there, Option.map_some]
    rw [wired.places] at listed
    exact (List.getElem?_eq_some_iff.mp listed).2.symm.trans (List.getElem_range _)
  · exact successorsOf_eq (found member) ▸ wired.successors_nodup block.name.id
  · have whole := (violations_eq_nil_iff.mp wellFormed).1 block member
    rw [← successorsOf_eq (found member), wired.jumps, targetsOf, code_eq (found member)]
    exact mem_targetIds_terminator whole.shaped whole.terminated
  · exact predecessorsOf_eq (found member) ▸ wired.predecessors_nodup block.name.id
  · rw [← successorsOf_eq (found member), ← predecessorsOf_eq (found member')]
    exact wired.agree _ _
  · have edge : name.id ∈ function.successorsOf block.name.id := by
      rw [successorsOf_eq (found member)]
      exact List.mem_map_of_mem within
    exact owner (wired.target_isSome edge)
  · have edge : name.id ∈ function.predecessorsOf block.name.id := by
      rw [predecessorsOf_eq (found member)]
      exact List.mem_map_of_mem within
    exact owner (wired.source_isSome edge)

end Function

end ScriptCompiler.IR
