import Mathlib.Data.List.Nodup
import ScriptCompiler.Proofs.Optimize.Shared

/-!
# Folding settles code

Code is settled when nothing in it can be folded and nothing behind a copy of a constant reads the
copy (`Settled`).  What folding makes of an instruction cannot be folded and reads nothing that was
known before it, so folding settles code (`Function.foldConstants_settled`), and settled code stays
as it is (`Function.foldConstants_of_settled`).  The first needs that every instruction stands once,
since a later place would change an earlier one, and that no constant is a result, since the copy of
a constant to itself is read by what it stands for.  The second needs neither.
-/

namespace ScriptCompiler.IR.Shared

variable {constants : Nat → Constant} {known : Known} {node : Node}

/-! ### What is known -/

/-- Only results that are no constants are known, and to be constants. -/
def Known.Sound (constants : Nat → Constant) (known : Known) : Prop :=
  ∀ fact ∈ known, fact.1.kind ≠ .constant ∧ (fact.2.constant? constants).isSome

theorem Known.lookup_mem {name : Name} {content : Operand}
    (found : known.lookup name = some content) : (name, content) ∈ known := by
  obtain ⟨before, behind, rfl, -⟩ := List.lookup_eq_some_iff.mp found
  exact List.mem_append_right _ List.mem_cons_self

/-- No constant is known to be another one. -/
theorem Known.Sound.lookup_eq_none (sound : known.Sound constants) {name : Name}
    (isConstant : name.kind = .constant) : known.lookup name = none := by
  cases found : known.lookup name with
  | none => rfl
  | some content => exact absurd isConstant (sound _ (lookup_mem found)).1

theorem Operand.kind_of_constant? {name : Name}
    (holds : ((Operand.named name).constant? constants).isSome) : name.kind = .constant := by
  obtain ⟨kind, id⟩ := name
  cases kind with
  | constant => rfl
  | temporary | parameter | slot | global | unlisted => cases holds

/-- Behind substitution no name is read that is known. -/
theorem Operand.lookup_of_replaced (sound : known.Sound constants) {operand : Operand} {name : Name}
    (same : operand.replaced known = .named name) : known.lookup name = none := by
  cases operand with
  | plain content => cases same
  | named other =>
      rw [replaced, known?] at same
      cases found : known.lookup other with
      | none =>
          rw [found] at same
          cases same
          exact found
      | some content =>
          rw [found] at same
          have isConstant := (sound _ (Known.lookup_mem found)).2
          rw [show content = .named name from same] at isConstant
          exact sound.lookup_eq_none (kind_of_constant? isConstant)

namespace Node

theorem inputs_substituted :
    (node.substituted known).inputs = node.inputs.map (Operand.replaced known) := by
  cases node with
  | ret value => cases value <;> rfl
  | binary | unary | copy | alloca | load | store | call | jump | branch => rfl

theorem result?_substituted (known : Known) (node : Node) :
    (node.substituted known).result? = node.result? := by
  cases node <;> rfl

/-- Behind substitution nothing is read that is known. -/
theorem strange_substituted (sound : known.Sound constants) {name : Name}
    (reads : .named name ∈ (node.substituted known).inputs) : known.lookup name = none := by
  rw [inputs_substituted, List.mem_map] at reads
  obtain ⟨operand, -, same⟩ := reads
  exact Operand.lookup_of_replaced sound same

theorem substituted_of_strange
    (strange : ∀ name, .named name ∈ node.inputs → known.lookup name = none) :
    node.substituted known = node ∧ node.isSubstituted known = false := by
  have unknown : ∀ operand ∈ node.inputs, operand.known? known = none := by
    intro operand member
    cases operand with
    | named name => exact strange name member
    | plain => rfl
  have stays : ∀ operand ∈ node.inputs, operand.replaced known = operand := by
    intro operand member
    rw [Operand.replaced, unknown operand member, Option.getD_none]
  constructor
  · cases node with
    | call dest callee arguments =>
        exact congrArg (Node.call dest callee)
          (List.map_congr_left stays |>.trans arguments.map_id)
    | ret value =>
        cases value with
        | none => rfl
        | some value => exact congrArg (Node.ret ∘ some) (stays value List.mem_cons_self)
    | binary | unary | copy | alloca | load | store | jump | branch =>
        simp only [inputs, operands, List.forall_mem_cons] at stays
        simp only [substituted, stays]
  · rw [isSubstituted, List.any_eq_false]
    intro operand member
    simp [unknown operand member]

/-- What folding puts in the place of an instruction is final: it reads no named value, and defines
what the instruction defines. -/
theorem folded?_made {made : Node} {dropped : Option Nat}
    (folds : node.folded? constants = some (made, dropped)) :
    made.folded? constants = none ∧ (∀ name, .named name ∉ made.inputs) ∧
      ∀ name ∈ made.result?, name ∈ node.result? := by
  have ofCopy : ∀ {dest : Option Name} {result : Option Constant}, node.result? = dest →
      result.map (fun result => (Node.copy dest (.plain (some result)), (none : Option Nat))) =
        some (made, dropped) →
      made.folded? constants = none ∧ (∀ name, .named name ∉ made.inputs) ∧
        ∀ name ∈ made.result?, name ∈ node.result? := by
    intro dest result isDest copies
    obtain ⟨content, -, same⟩ := Option.map_eq_some_iff.mp copies
    cases same
    exact ⟨rfl, by simp [inputs, operands], fun name member => isDest ▸ member⟩
  have ofJump : ∀ {target : Nat}, Node.jump target = made →
      made.folded? constants = none ∧ (∀ name, .named name ∉ made.inputs) ∧
        ∀ name ∈ made.result?, name ∈ node.result? := by
    rintro target rfl
    exact ⟨rfl, by simp [inputs, operands], by simp [result?]⟩
  cases node with
  | binary opcode dest left right =>
      rw [folded?] at folds
      split at folds
      · exact ofCopy rfl folds
      · cases folds
  | unary opcode dest operand =>
      rw [folded?] at folds
      split at folds
      · exact ofCopy rfl folds
      · cases folds
  | branch condition ifTrue ifFalse =>
      rw [folded?] at folds
      split at folds
      · exact ofJump (congrArg Prod.fst (Option.some.inj folds))
      · exact ofJump (congrArg Prod.fst (Option.some.inj folds))
      · cases folds
  | copy | alloca | load | store | call | jump | ret => cases folds

/-- At most one thing is learnt from an instruction, of its result. -/
theorem facts_cases (constants : Nat → Constant) (node : Node) :
    node.facts constants = [] ∨ ∃ dest value, dest ∈ node.result? ∧
      (value.constant? constants).isSome ∧ node.facts constants = [(dest, value)] := by
  unfold facts
  split
  · rename_i dest value
    split
    · rename_i isConstant
      exact .inr ⟨dest, value, rfl, isConstant, rfl⟩
    · exact .inl rfl
  · exact .inl rfl

/-- What is learnt from an instruction whose result is no constant is sound. -/
theorem facts_sound (varies : ∀ name ∈ node.result?, name.kind ≠ .constant)
    (sound : known.Sound constants) : Known.Sound constants (node.facts constants ++ known) := by
  rcases node.facts_cases constants with none | ⟨dest, value, isDest, holds, same⟩
  · rwa [none]
  · rw [same]
    exact List.forall_mem_cons.mpr ⟨⟨varies dest isDest, holds⟩, sound⟩

end Node

/-! ### Settled code -/

/-- Code in which nothing is left to fold. -/
structure Settled (constants : Nat → Constant) (code : List Node) : Prop where
  /-- No instruction can be folded. -/
  final : ∀ node ∈ code, node.folded? constants = none
  /-- A copy of a constant is not read behind it, but for addresses. -/
  copies : code.Pairwise fun earlier later =>
    ∀ fact ∈ earlier.facts constants, .named fact.1 ∉ later.inputs

/-- No input in the code is known. -/
def Known.Strange (known : Known) (code : List Node) : Prop :=
  ∀ node ∈ code, ∀ name, .named name ∈ node.inputs → known.lookup name = none

theorem Settled.sublist {code others : List Node} (settled : Settled constants code)
    (kept : others.Sublist code) : Settled constants others :=
  ⟨fun node member => settled.final node (kept.subset member), settled.copies.sublist kept⟩

theorem settled_cons {rest : List Node} :
    Settled constants (node :: rest) ↔ (node.folded? constants = none ∧
      ∀ fact ∈ node.facts constants, ∀ later ∈ rest, .named fact.1 ∉ later.inputs) ∧
        Settled constants rest := by
  constructor
  · rintro ⟨final, copies⟩
    rw [List.forall_mem_cons] at final
    rw [List.pairwise_cons] at copies
    exact ⟨⟨final.1, fun fact learnt later member => copies.1 later member fact learnt⟩, final.2,
      copies.2⟩
  · rintro ⟨⟨here, unread⟩, final, copies⟩
    exact ⟨List.forall_mem_cons.mpr ⟨here, final⟩, List.pairwise_cons.mpr
      ⟨fun later member fact learnt => unread fact learnt later member, copies⟩⟩

/-- What is not known behind an instruction is not learnt from it, and was not known before. -/
theorem lookup_facts_append {name : Name}
    (unknown : (node.facts constants ++ known).lookup name = none) :
    known.lookup name = none ∧ ∀ fact ∈ node.facts constants, fact.1 ≠ name := by
  rcases node.facts_cases constants with none | ⟨dest, value, -, -, same⟩
  · rw [none] at unknown ⊢
    exact ⟨unknown, by simp⟩
  · rw [same, List.singleton_append, List.lookup_cons] at unknown
    split at unknown
    · cases unknown
    · rename_i differ
      rw [same, List.forall_mem_singleton]
      exact ⟨unknown, fun equal => ne_of_beq_false differ equal.symm⟩

/-- Where a name is known neither before nor from an instruction, it is not known behind it. -/
theorem lookup_facts_append_of_ne {name : Name} (unknown : known.lookup name = none)
    (differ : ∀ fact ∈ node.facts constants, fact.1 ≠ name) :
    (node.facts constants ++ known).lookup name = none := by
  rcases node.facts_cases constants with none | ⟨dest, value, -, -, same⟩
  · rwa [none]
  · rw [same, List.forall_mem_singleton] at differ
    have isOther : (name == dest) = false := beq_false_of_ne fun equal => differ equal.symm
    rw [same, List.singleton_append, List.lookup_cons, isOther]
    exact unknown

/-! ### Folding in place -/

namespace Occurrence

variable {cells others : Nat → Node} {place : Occurrence}

/-- What stands in a place depends on its own instruction only. -/
theorem node_congr (same : ∀ number ∈ place.cell?, cells number = others number) :
    place.node cells = place.node others := by
  cases place with
  | cell number => exact same number rfl
  | own node => rfl

@[simp]
theorem node_write (cells : Nat → Node) (node : Node) (place : Occurrence) :
    (place.write cells node).2.node (place.write cells node).1 = node := by
  cases place with
  | cell number => exact Function.update_self number node cells
  | own => rfl

@[simp]
theorem cell?_write (cells : Nat → Node) (node : Node) (place : Occurrence) :
    (place.write cells node).2.cell? = place.cell? := by
  cases place <;> rfl

/-- Other instructions stay as they are. -/
theorem write_elsewhere {number : Nat} (other : number ∉ place.cell?) (node : Node) :
    (place.write cells node).1 number = cells number := by
  cases place with
  | cell here => exact Function.update_of_ne (fun same => other (congrArg some same.symm)) _ _
  | own => rfl

theorem write_node (cells : Nat → Node) (place : Occurrence) :
    place.write cells (place.node cells) = (cells, place) := by
  cases place with
  | cell number => exact Prod.ext (Function.update_eq_self number cells) rfl
  | own node => rfl

end Occurrence

namespace Folding

variable {state : Folding} {place : Occurrence} {places : List Occurrence}

/-- The instructions that stand in the places. -/
def standing (cells : Nat → Node) (places : List Occurrence) : List Node :=
  places.map (Occurrence.node cells)

/-- The numbers of the instructions that stand in the places. -/
def cellsOf (places : List Occurrence) : List Nat := places.filterMap Occurrence.cell?

theorem mem_cellsOf {number : Nat} (member : place ∈ places) (stands : number ∈ place.cell?) :
    number ∈ cellsOf places :=
  List.mem_filterMap.mpr ⟨place, member, stands⟩

/-- Folding an instruction changes no other one. -/
theorem onOccurrence_cells {number : Nat} (other : number ∉ place.cell?) :
    (state.onOccurrence constants place).1.cells number = state.cells number := by
  unfold onOccurrence
  dsimp only
  split <;> exact Occurrence.write_elsewhere other _

/-- Where an instruction is folded, either the same one stands or a new one. -/
theorem onOccurrence_cell? {number : Nat}
    (stands : number ∈ (state.onOccurrence constants place).2.1.cell?) : number ∈ place.cell? := by
  unfold onOccurrence at stands
  dsimp only at stands
  split at stands
  · cases stands
  · rwa [Occurrence.cell?_write] at stands

/-- What folding makes of an instruction cannot be folded, and reads nothing that was known
before. -/
theorem onOccurrence_settled (sound : state.known.Sound constants)
    (varies : ∀ name ∈ (place.node state.cells).result?, name.kind ≠ .constant) :
    let (next, folded, _) := state.onOccurrence constants place
    let after := folded.node next.cells
    after.folded? constants = none ∧
      (∀ name, .named name ∈ after.inputs → state.known.lookup name = none) ∧
      next.known = after.facts constants ++ state.known ∧ next.known.Sound constants := by
  unfold onOccurrence
  dsimp only
  split
  · rename_i made dropped folds
    obtain ⟨final, reads, results⟩ := Node.folded?_made folds
    refine ⟨final, fun name member => absurd member (reads name), rfl,
      Node.facts_sound (fun name member => varies name ?_) sound⟩
    exact Node.result?_substituted state.known _ ▸ results name member
  · rename_i final
    rw [Occurrence.node_write]
    refine ⟨final, fun name => Node.strange_substituted sound, rfl,
      Node.facts_sound (fun name member => varies name ?_) sound⟩
    rwa [Node.result?_substituted] at member

/-- Folding code changes no instruction that does not stand in it. -/
theorem onCode_cells {number : Nat} (other : number ∉ cellsOf places) :
    (state.onCode constants places).1.cells number = state.cells number := by
  induction places generalizing state with
  | nil => rfl
  | cons place rest ih =>
      rw [onCode]
      dsimp only
      rw [ih fun later => other ?_, onOccurrence_cells fun here => other ?_]
      · exact mem_cellsOf List.mem_cons_self here
      · obtain ⟨place, member, stands⟩ := List.mem_filterMap.mp later
        exact mem_cellsOf (List.mem_cons_of_mem _ member) stands

/-- **Folding settles code** in which every instruction stands once and no result is a constant, and
behind it nothing is read that was known before. -/
theorem onCode_settled (constants : Nat → Constant) (state : Folding)
    (once : (cellsOf places).Nodup) (sound : state.known.Sound constants)
    (varies : ∀ node ∈ standing state.cells places, ∀ name ∈ node.result?,
      name.kind ≠ .constant) :
    let (last, folded, _) := state.onCode constants places
    Settled constants (standing last.cells folded) ∧
      state.known.Strange (standing last.cells folded) := by
  induction places generalizing state with
  | nil => exact ⟨⟨by simp [standing], .nil⟩, by simp [standing, Known.Strange]⟩
  | cons place rest ih =>
      obtain ⟨here, later⟩ := List.forall_mem_cons.mp varies
      have apart : ∀ number ∈ place.cell?, number ∉ cellsOf rest := by
        intro number stands within
        rw [cellsOf, List.filterMap_cons, stands] at once
        exact (List.nodup_cons.mp once).1 within
      have onceLater : (cellsOf rest).Nodup :=
        once.sublist ((List.sublist_cons_self place rest).filterMap _)
      obtain ⟨final, reads, learns, soundNext⟩ := onOccurrence_settled sound here
      -- the rest is as it was before the first instruction was folded
      have same : standing (state.onOccurrence constants place).1.cells rest =
          standing state.cells rest := by
        refine List.map_congr_left fun other member => Occurrence.node_congr fun number stands => ?_
        exact onOccurrence_cells fun equal => apart number equal (mem_cellsOf member stands)
      obtain ⟨settled, strange⟩ := ih _ onceLater soundNext (same ▸ later)
      -- and the first instruction stays as it is while the rest is folded
      have stays : (state.onOccurrence constants place).2.1.node
          ((state.onOccurrence constants place).1.onCode constants rest).1.cells =
          (state.onOccurrence constants place).2.1.node
            (state.onOccurrence constants place).1.cells :=
        Occurrence.node_congr fun number stands =>
          onCode_cells (apart number (onOccurrence_cell? stands))
      rw [onCode]
      dsimp only
      rw [standing, List.map_cons, stays]
      refine ⟨settled_cons.mpr ⟨⟨final, fun fact learnt use member read => ?_⟩, settled⟩,
        List.forall_mem_cons.mpr ⟨reads, fun use member name read => ?_⟩⟩
      · have unknown := strange use member fact.1 read
        rw [learns] at unknown
        exact (lookup_facts_append unknown).2 fact learnt rfl
      · have unknown := strange use member name read
        rw [learns] at unknown
        exact (lookup_facts_append unknown).1

theorem onCode_append (constants : Nat → Constant) (state : Folding)
    (first second : List Occurrence) :
    (state.onCode constants (first ++ second)).1 =
        ((state.onCode constants first).1.onCode constants second).1 ∧
      (state.onCode constants (first ++ second)).2.1 =
        (state.onCode constants first).2.1 ++
          ((state.onCode constants first).1.onCode constants second).2.1 := by
  induction first generalizing state with
  | nil => exact ⟨rfl, rfl⟩
  | cons place rest ih =>
      obtain ⟨states, places⟩ := ih (state.onOccurrence constants place).1
      exact ⟨states, congrArg ((state.onOccurrence constants place).2.1 :: ·) places⟩

section Blocks

variable {code : Nat → List Occurrence}

/-- A block with instructions stands once. -/
def BlocksOnce (code : Nat → List Occurrence) (blocks : List Nat) : Prop :=
  blocks.Pairwise fun first second => first = second → code first = []

/-- Folding the code of a block changes that of no other block in which something stands. -/
theorem update_onCode {block other : Nat} (once : block = other → code block = []) :
    Function.update code block (state.onCode constants (code block)).2.1 other = code other := by
  by_cases same : other = block
  · rw [same, Function.update_self, once same.symm]
    rfl
  · exact Function.update_of_ne same _ _

/-- A block that is not folded, or in which nothing stands, stays as it is. -/
theorem onBlocks_code {blocks : List Nat} {block : Nat} (empty : block ∈ blocks → code block = []) :
    (state.onBlocks constants code blocks).2.1 block = code block := by
  induction blocks generalizing state code with
  | nil => rfl
  | cons head rest ih =>
      have same : Function.update code head (state.onCode constants (code head)).2.1 block =
          code block := update_onCode fun same => by
        rw [same]
        exact empty (same ▸ List.mem_cons_self)
      rw [onBlocks]
      dsimp only
      rw [ih fun within => ?_, same]
      rw [same]
      exact empty (List.mem_cons_of_mem _ within)

/-- The blocks are folded as the code of all of them. -/
theorem onBlocks_eq (constants : Nat → Constant) (state : Folding) {blocks : List Nat}
    (once : BlocksOnce code blocks) :
    (state.onBlocks constants code blocks).1 =
        (state.onCode constants (blocks.flatMap code)).1 ∧
      blocks.flatMap (state.onBlocks constants code blocks).2.1 =
        (state.onCode constants (blocks.flatMap code)).2.1 := by
  induction blocks generalizing state code with
  | nil => exact ⟨rfl, rfl⟩
  | cons block rest ih =>
      obtain ⟨head, tail⟩ := List.pairwise_cons.mp once
      have same : ∀ other ∈ rest,
          Function.update code block (state.onCode constants (code block)).2.1 other =
            code other := fun other member => update_onCode (head other member)
      have onceLater : BlocksOnce
          (Function.update code block (state.onCode constants (code block)).2.1) rest := by
        refine tail.imp_of_mem fun {first second} member _ empty equal => ?_
        rw [same first member]
        exact empty equal
      obtain ⟨states, codes⟩ := ih (state.onCode constants (code block)).1 onceLater
      rw [List.flatMap_congr same] at states codes
      obtain ⟨appendStates, appendCodes⟩ :=
        state.onCode_append constants (code block) (rest.flatMap code)
      have isFolded : (state.onBlocks constants code (block :: rest)).2.1 block =
          (state.onCode constants (code block)).2.1 := by
        rw [onBlocks]
        dsimp only
        rw [onBlocks_code fun within => ?_, Function.update_self]
        rw [Function.update_self, head block within rfl]
        rfl
      rw [List.flatMap_cons, List.flatMap_cons, appendStates, appendCodes, isFolded]
      exact ⟨states, congrArg _ codes⟩

end Blocks

/-! ### Settled code stays as it is -/

/-- An instruction of settled code stays as it is, and nothing behind it is known. -/
theorem onOccurrence_of_settled {rest : List Node}
    (settled : Settled constants (place.node state.cells :: rest))
    (strange : state.known.Strange (place.node state.cells :: rest)) :
    ∃ known, state.onOccurrence constants place =
      (⟨state.cells, known, state.changed⟩, place, none) ∧ known.Strange rest := by
  obtain ⟨⟨final, unread⟩, -⟩ := settled_cons.mp settled
  obtain ⟨here, later⟩ := List.forall_mem_cons.mp strange
  obtain ⟨same, unchanged⟩ := Node.substituted_of_strange here
  refine ⟨(place.node state.cells).facts constants ++ state.known, ?_, fun use member name read =>
    lookup_facts_append_of_ne (later use member name read) fun fact learnt equal => ?_⟩
  · rw [onOccurrence, same, unchanged, final, Occurrence.write_node, Bool.or_false]
  · exact unread fact learnt use member (equal ▸ read)

theorem onCode_of_settled (state : Folding) {rest : List Node}
    (settled : Settled constants (standing state.cells places ++ rest))
    (strange : state.known.Strange (standing state.cells places ++ rest)) :
    ∃ known, state.onCode constants places =
      (⟨state.cells, known, state.changed⟩, places, []) ∧ known.Strange rest := by
  induction places generalizing state with
  | nil => exact ⟨state.known, rfl, strange⟩
  | cons place places ih =>
      obtain ⟨known, stays, later⟩ := onOccurrence_of_settled settled strange
      obtain ⟨last, others, behind⟩ :=
        ih ⟨state.cells, known, state.changed⟩ (settled_cons.mp settled).2 later
      refine ⟨last, ?_, behind⟩
      rw [onCode, stays]
      dsimp only
      rw [others]
      rfl

theorem onBlocks_of_settled (state : Folding) {code : Nat → List Occurrence} {blocks : List Nat}
    (settled : Settled constants (standing state.cells (blocks.flatMap code)))
    (strange : state.known.Strange (standing state.cells (blocks.flatMap code))) :
    ∃ known, state.onBlocks constants code blocks =
      (⟨state.cells, known, state.changed⟩, code, []) := by
  induction blocks generalizing state with
  | nil => exact ⟨state.known, rfl⟩
  | cons block rest ih =>
      rw [List.flatMap_cons, standing, List.map_append] at settled strange
      obtain ⟨known, stays, later⟩ := onCode_of_settled state settled strange
      obtain ⟨last, others⟩ := ih ⟨state.cells, known, state.changed⟩
        (settled.sublist (List.sublist_append_right _ _)) later
      refine ⟨last, ?_⟩
      rw [onBlocks, stays]
      dsimp only
      rw [Function.update_eq_self, others]
      rfl

end Folding

/-! ### Folding functions -/

namespace Function

variable {function : Function}

/-- A function of which every instruction stands in one place and defines no constant. -/
structure Proper (function : Function) : Prop where
  /-- No constant is the result of an instruction. -/
  results : ∀ node ∈ function.listing, ∀ name ∈ node.result?, name.kind ≠ .constant
  /-- No instruction stands in two places. -/
  nodes : (Folding.cellsOf (function.blocks.flatMap function.code)).Nodup
  /-- Only a block without instructions may stand in two places. -/
  blocks : Folding.BlocksOnce function.code function.blocks

theorem listing_eq (function : Function) :
    function.listing = Folding.standing function.cells (function.blocks.flatMap function.code) := by
  rw [listing, Folding.standing, List.map_flatMap]

/-- Forgetting edges changes neither instructions nor blocks. -/
theorem removeEdges_eq (edges : List (Nat × Nat)) (function : Function) :
    ∃ successors predecessors,
      function.removeEdges edges = { function with successors, predecessors } := by
  induction edges generalizing function with
  | nil => exact ⟨function.successors, function.predecessors, rfl⟩
  | cons edge rest ih => exact ih (function.removeEdge edge.1 edge.2)

/-- What folding finds in the blocks of a function. -/
def found (function : Function) : Folding × (Nat → List Occurrence) × List (Nat × Nat) :=
  Folding.onBlocks function.constants { cells := function.cells } function.code function.blocks

/-- Folding writes what it finds into the function and forgets edges. -/
theorem foldConstants_eq (function : Function) :
    ∃ successors predecessors, function.foldConstants =
      ({ function with
          cells := function.found.1.cells, code := function.found.2.1, successors, predecessors },
        function.found.1.changed) := by
  obtain ⟨successors, predecessors, same⟩ := removeEdges_eq function.found.2.2
    { function with cells := function.found.1.cells, code := function.found.2.1 }
  exact ⟨successors, predecessors, Prod.ext same rfl⟩

/-- The code of a function is settled by folding. -/
theorem Proper.foldConstants_settled (proper : function.Proper) :
    Settled function.foldConstants.1.constants function.foldConstants.1.listing := by
  obtain ⟨states, codes⟩ := Folding.onBlocks_eq function.constants { cells := function.cells }
    proper.blocks
  have settled := (Folding.onCode_settled function.constants { cells := function.cells }
    proper.nodes (by simp [Known.Sound])
    (function.listing_eq ▸ proper.results)).1
  rw [← states, ← codes] at settled
  obtain ⟨successors, predecessors, same⟩ := function.foldConstants_eq
  rw [same, listing_eq]
  exact settled

/-- A function with settled code stays as it is, whatever stands in several places. -/
theorem foldConstants_of_settled (settled : Settled function.constants function.listing) :
    function.foldConstants = (function, false) := by
  rw [listing_eq] at settled
  obtain ⟨known, stays⟩ := Folding.onBlocks_of_settled { cells := function.cells }
    settled (by simp [Known.Strange])
  rw [foldConstants, stays]
  rfl

end Function

end ScriptCompiler.IR.Shared
