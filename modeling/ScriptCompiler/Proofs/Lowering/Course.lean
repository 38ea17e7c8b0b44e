import ScriptCompiler.Proofs.Lowering.Moves
import ScriptCompiler.Proofs.Lowering.Scopes

/-!
# The course of lowering

A draft is ready for a context when it is sound and every name of the context stands for a slot that
is filled at the end of the current block or for a function that can be called.  A course leads from
a draft to a later one that is ready again: it consists of tidy moves, it puts nothing into a block
that was there before except the current one, and it changes the meaning of names in no outer
context.
-/

namespace ScriptCompiler.Lowering

open IR

variable {signature? : Bytes → Option Signature} {context : Nat} {before middle after : Draft}

/-- A slot that can be read and written at the end of the current block. -/
structure Draft.Filled (draft : Draft) (place : Place) : Prop where
  /-- The slot belongs to the function. -/
  isResult : Value.slot place ∈ draft.state.function.results
  /-- Its type has values. -/
  isValue : place.type.IsValue
  /-- It has been made. -/
  slot : Supply.slot place.id ∈ draft.held
  /-- Something is in it. -/
  content : Supply.content place.id ∈ draft.held

/-- A draft in which something can be lowered in a context. -/
structure Draft.Ready (signature? : Bytes → Option Signature) (draft : Draft) (context : Nat) :
    Prop where
  /-- The code is sound. -/
  sound : draft.Sound signature?
  /-- The scopes are well formed. -/
  wellScoped : draft.state.WellScoped
  /-- The context is there. -/
  inside : context < draft.state.nextContext
  /-- The slots of variables are there and hold something. -/
  filled : ∀ name place, draft.state.meaning? context name = some (.variable place) →
    draft.Filled place
  /-- The functions can be called. -/
  callable : ∀ name signature, draft.state.meaning? context name = some (.function signature) →
    signature? name = some signature ∧ signature.result ≠ .invalid

/-- From one draft to a later one, by lowering something in a context. -/
structure Course (signature? : Bytes → Option Signature) (context : Nat) (before after : Draft) :
    Prop where
  /-- Instructions are put into open blocks only. -/
  moves : Moves signature? True before after
  /-- More can be lowered. -/
  ready : after.Ready signature? context
  /-- What was supplied is supplied. -/
  held_subset : before.held ⊆ after.held
  /-- The certificate is only extended. -/
  known_eq : ∀ id < before.state.function.nextBlock, after.known id = before.known id
  /-- Scopes are added. -/
  nextContext_le : before.state.nextContext ≤ after.state.nextContext
  /-- Outer contexts are unchanged. -/
  outer : ∀ other < context, after.state.meaning? other = before.state.meaning? other
  /-- Other blocks are unchanged. -/
  untouched : ∀ id < before.state.function.nextBlock, id ≠ before.state.current.id →
    after.state.function.code id = before.state.function.code id
  /-- The current block is the same or a new one. -/
  current : after.state.current = before.state.current ∨
    before.state.function.nextBlock ≤ after.state.current.id

theorem Draft.Filled.mono {place : Place} (filled : before.Filled place)
    (results : ∀ value ∈ before.state.function.results, value ∈ after.state.function.results)
    (held : before.held ⊆ after.held) : after.Filled place :=
  ⟨results _ filled.isResult, filled.isValue, held filled.slot, held filled.content⟩

namespace Course

theorem grows (course : Course signature? context before after) :
    before.state.Grows after.state :=
  course.moves.grows

theorem refl (ready : before.Ready signature? context) : Course signature? context before before :=
  ⟨.refl, ready, fun _ member => member, fun _ _ => rfl, Nat.le_refl _, fun _ _ => rfl,
    fun _ _ _ => rfl, .inl rfl⟩

theorem trans (first : Course signature? context before middle)
    (second : Course signature? context middle after) : Course signature? context before after where
  moves := Relation.ReflTransGen.trans first.moves second.moves
  ready := second.ready
  held_subset := first.held_subset.trans second.held_subset
  known_eq := by
    intro id old
    rw [second.known_eq id (Nat.lt_of_lt_of_le old first.grows.nextBlock_le), first.known_eq id old]
  nextContext_le := first.nextContext_le.trans second.nextContext_le
  outer := by
    intro other outer
    rw [second.outer other outer, first.outer other outer]
  untouched := by
    intro id old differ
    have elsewhere : id ≠ middle.state.current.id := by
      rcases first.current with same | new
      · rwa [same]
      · exact Nat.ne_of_lt (Nat.lt_of_lt_of_le old new)
    rw [second.untouched id (Nat.lt_of_lt_of_le old first.grows.nextBlock_le) elsewhere,
      first.untouched id old differ]
  current := by
    rcases second.current with same | new
    · rw [same]
      exact first.current
    · exact .inr (first.grows.nextBlock_le.trans new)

/-- A course that is continued by one move in the current block. -/
theorem extend (course : Course signature? context before middle)
    (move : Move signature? True middle after) (held : middle.held ⊆ after.held)
    (known : ∀ id < middle.state.function.nextBlock, after.known id = middle.known id)
    (wellScoped : after.state.WellScoped)
    (contexts : after.state.nextContext = middle.state.nextContext)
    (meanings : after.state.meaning? = middle.state.meaning?)
    (untouched : ∀ id, id ≠ middle.state.current.id →
      after.state.function.code id = middle.state.function.code id)
    (current : after.state.current = middle.state.current) :
    Course signature? context before after := by
  have results : ∀ value ∈ middle.state.function.results, value ∈ after.state.function.results :=
    fun _ => move.grows.results_subset course.ready.sound.numbered
  refine course.trans
    { moves := .single move, held_subset := held, known_eq := known, outer := ?_, untouched := ?_,
      nextContext_le := contexts.ge, current := .inl current, ready := ?_ }
  · refine ⟨course.ready.sound.move move, wellScoped, contexts ▸ course.ready.inside, ?_, ?_⟩
    · intro name place means
      rw [meanings] at means
      exact (course.ready.filled name place means).mono results held
    · intro name signature means
      rw [meanings] at means
      exact course.ready.callable name signature means
  · intro other _
    rw [meanings]
  · intro id _ differ
    exact untouched id differ

section Notes

variable (course : Course signature? context before middle)
include course

theorem skip : Course signature? context before ⟨middle.state.skip, middle.known⟩ :=
  course.extend (.note _ (Nat.le_succ _) rfl rfl List.prefix_rfl (.inl rfl))
    (fun _ member => member) (fun _ _ => rfl) (course.ready.wellScoped.congr rfl rfl) rfl
    (State.meaning?_congr rfl rfl) (fun _ _ => rfl) rfl

theorem addText (content : Bytes) :
    Course signature? context before ⟨middle.state.addText content, middle.known⟩ := by
  refine course.extend (.note _ (Nat.le_refl _) rfl rfl ?_ (.inl rfl))
    (fun _ member => member) (fun _ _ => rfl) (course.ready.wellScoped.congr rfl rfl) rfl
    (State.meaning?_congr rfl rfl) (fun _ _ => rfl) rfl
  simp only [State.addText, internString]
  split
  · exact List.prefix_rfl
  · exact List.prefix_append _ _

theorem addFormatter :
    Course signature? context before ⟨middle.state.addFormatter, middle.known⟩ :=
  course.extend (.note _ (Nat.le_refl _) rfl rfl List.prefix_rfl (.inr rfl))
    (fun _ member => member) (fun _ _ => rfl) (course.ready.wellScoped.congr rfl rfl) rfl
    (State.meaning?_congr rfl rfl) (fun _ _ => rfl) rfl

theorem use (symbol : Symbol) (name : Bytes) :
    Course signature? context before ⟨middle.state.use symbol name, middle.known⟩ :=
  course.extend (.note _ (Nat.le_refl _) rfl rfl List.prefix_rfl (.inl rfl))
    (fun _ member => member) (fun _ _ => rfl) (course.ready.wellScoped.use symbol)
    ScopeTable.records_length_update (course.ready.wellScoped.meaning?_use symbol name)
    (fun _ _ => rfl) rfl

end Notes

end Course

section Put

variable {draft : Draft} {state : State} {instr : Instr} {count : Nat}

theorem State.emit_eq_put (straight : instr.targets = []) :
    state.emit instr = state.put instr 0 := by
  rw [State.put, State.connectAll, straight]
  rfl

theorem State.define_eq_put (straight : instr.targets = []) :
    state.define instr = state.put instr 1 := by
  rw [State.put, State.connectAll, straight]
  rfl

theorem Draft.held_put (owned : (draft.state.function.block? draft.state.current.id).isSome) :
    Draft.held ⟨draft.state.put instr count, draft.known⟩ = supplied draft.held [instr] := by
  have current : (draft.state.put instr count).current = draft.state.current := by
    simp [State.put, State.emit]
  simp only [Draft.held, current, State.code_put_self owned, supplied_append]

/-- Behind an instruction the block is open unless the instruction is a terminator. -/
theorem State.isOpen_put (owned : (state.function.block? state.current.id).isSome) :
    (state.put instr count).isOpen = !instr.isTerminator := by
  have current : (state.put instr count).current = state.current := by
    simp [State.put, State.emit]
  have stays : ((state.put instr count).function.block? state.current.id).isSome := by
    obtain ⟨block, found⟩ := Option.isSome_iff_exists.mp owned
    obtain ⟨_, _, put, _⟩ := State.block?_put instr count found
    simp [put]
  rw [Bool.eq_iff_iff, State.isOpen, current, Function.isOpen_iff, State.code_put_self owned]
  simp [stays]

/-- An empty block is open. -/
theorem Function.isOpen_of_nil {function : Function} {id : Nat}
    (owned : (function.block? id).isSome) (empty : function.code id = []) :
    function.isOpen id = true := by
  simp [Function.isOpen_iff, owned, empty]

end Put

/-- A block that the current one may jump to. -/
structure Draft.Reaches (draft : Draft) (target : BlockName) : Prop where
  /-- The block is there. -/
  below : target.id < draft.state.function.nextBlock
  /-- It is not the entry. -/
  notEntry : target.id ≠ Function.entry
  /-- It is brought what it starts with. -/
  known_subset : draft.known target.id ⊆ draft.held

/-- The draft with a new block, which starts with what is supplied now. -/
def Draft.addBlock (draft : Draft) (label : Bytes) : Draft :=
  ⟨draft.state.addBlock label,
    Function.update draft.known draft.state.function.nextBlock draft.held⟩

namespace Draft.Sound

variable {draft : Draft} (sound : draft.Sound signature?) (label : Bytes)
include sound

theorem held_addBlock : (draft.addBlock label).held = draft.held := by
  have here := Nat.ne_of_lt sound.current_lt
  simp only [Draft.held, Draft.addBlock, State.addBlock, Function.code_newBlock,
    Function.update_of_ne here]

theorem isOpen_addBlock : (draft.addBlock label).state.isOpen = draft.state.isOpen := by
  refine Function.isOpen_congr ?_ ?_
  · simp only [Draft.addBlock, State.addBlock, Function.block?_newBlock sound.numbered,
      if_neg (Nat.ne_of_lt sound.current_lt)]
  · simp only [Draft.addBlock, State.addBlock, Function.code_newBlock]

end Draft.Sound

/-- A block that was made behind a draft and starts with what was supplied there. -/
structure Draft.Made (base draft : Draft) (name : BlockName) : Prop where
  /-- The block was not there. -/
  new : base.state.function.nextBlock ≤ name.id
  /-- The block is there now. -/
  below : name.id < draft.state.function.nextBlock
  /-- It starts with what was supplied. -/
  known_eq : draft.known name.id = base.held

namespace Draft.Made

variable {base draft : Draft} {name : BlockName}

theorem course (made : base.Made before name) (course : Course signature? context before after) :
    base.Made after name where
  new := made.new
  below := Nat.lt_of_lt_of_le made.below course.grows.nextBlock_le
  known_eq := (course.known_eq name.id made.below).trans made.known_eq

theorem enter (made : base.Made draft name) (other : BlockName) :
    base.Made ⟨draft.state.enter other, draft.known⟩ name :=
  ⟨made.new, made.below, made.known_eq⟩

/-- A new block may be jumped to when nothing is lost. -/
theorem reaches (made : base.Made draft name) (sound : base.Sound signature?)
    (held : base.held ⊆ draft.held) : draft.Reaches name where
  below := made.below
  notEntry := Nat.ne_of_gt (Nat.lt_of_lt_of_le
    (Nat.lt_of_le_of_lt (Nat.zero_le _) sound.current_lt) made.new)
  known_subset := made.known_eq ▸ held

end Draft.Made

/-- A block that was made behind a draft and has not been entered. -/
structure Draft.Fresh (base draft : Draft) (name : BlockName) : Prop extends
    Draft.Made base draft name where
  /-- Nothing is in it. -/
  empty : draft.state.function.code name.id = []
  /-- It is not the current one. -/
  elsewhere : name.id ≠ draft.state.current.id

namespace Draft.Fresh

variable {base draft : Draft} {name : BlockName}

theorem addBlock (sound : draft.Sound signature?)
    (older : base.state.function.nextBlock ≤ draft.state.function.nextBlock)
    (held : draft.held = base.held) (label : Bytes) :
    base.Fresh (draft.addBlock label) (draft.state.blockName label) where
  new := older
  below := Nat.lt_succ_self _
  known_eq := by
    rw [← held]
    exact Function.update_self draft.state.function.nextBlock draft.held draft.known
  empty := Function.code_newBlock.trans (sound.numbered.code_of_le (Nat.le_refl _))
  elsewhere := Nat.ne_of_gt sound.current_lt

theorem course (fresh : base.Fresh before name) (course : Course signature? context before after) :
    base.Fresh after name where
  toMade := fresh.toMade.course course
  empty := (course.untouched name.id fresh.below fresh.elsewhere).trans fresh.empty
  elsewhere := by
    rcases course.current with same | later
    · exact same ▸ fresh.elsewhere
    · exact Nat.ne_of_lt (Nat.lt_of_lt_of_le fresh.below later)

theorem enter (fresh : base.Fresh draft name) {other : BlockName} (differ : name.id ≠ other.id) :
    base.Fresh ⟨draft.state.enter other, draft.known⟩ name :=
  ⟨fresh.toMade.enter other, fresh.empty, differ⟩

/-- A new block is open when it is entered. -/
theorem isOpen (fresh : base.Fresh draft name) (sound : draft.Sound signature?) :
    (draft.state.enter name).isOpen = true :=
  Function.isOpen_of_nil (sound.numbered.block?_isSome.mpr fresh.below) fresh.empty

end Draft.Fresh

namespace Course

theorem reaches (course : Course signature? context before after) {target : BlockName}
    (reaches : before.Reaches target) : after.Reaches target where
  below := Nat.lt_of_lt_of_le reaches.below course.grows.nextBlock_le
  notEntry := reaches.notEntry
  known_subset := by
    rw [course.known_eq target.id reaches.below]
    exact reaches.known_subset.trans course.held_subset

section Instructions

variable (course : Course signature? context before middle) (takes : middle.state.isOpen = true)
  {instr : Instr}
include course takes

/-- A course that is continued by an instruction. -/
theorem put (instr : Instr) (count : Nat)
    (typed : instr.Typed middle.state.function (middle.state.interface signature?))
    (demands : ∀ supply ∈ instr.demands, supply ∈ middle.held)
    (targets : ∀ target ∈ instr.targets, middle.Reaches target)
    (result : ∀ value, instr.result? = some value →
      value.id? = some middle.state.nextId ∧ count = 1)
    (external : ∀ callee ∈ instr.callee?, callee.linkage = .external →
      formatter ∈ middle.state.externals)
    (plain : ∀ dest value, instr ≠ .copy dest value := by simp) :
    Course signature? context before ⟨middle.state.put instr count, middle.known⟩ := by
  have owned := course.ready.sound.owned
  refine course.extend
    (.put instr count (fun _ => takes) typed demands
      (fun target aims => ⟨(targets target aims).below, (targets target aims).notEntry,
        (targets target aims).known_subset⟩) result external plain)
    ?_ (fun _ _ => rfl) (course.ready.wellScoped.congr ?_ ?_) ?_ (State.meaning?_congr ?_ ?_)
    (fun id differ => State.code_put_of_ne differ) ?_
  · rw [Draft.held_put owned]
    exact subset_supplied [instr]
  all_goals simp [State.put, State.emit, State.nextContext]

/-- A course that is continued by an instruction without a result that ends no block. -/
theorem emit (straight : instr.targets = []) (noResult : instr.result? = none)
    (typed : instr.Typed middle.state.function (middle.state.interface signature?))
    (demands : ∀ supply ∈ instr.demands, supply ∈ middle.held)
    (external : ∀ callee ∈ instr.callee?, callee.linkage = .external →
      formatter ∈ middle.state.externals) :
    Course signature? context before ⟨middle.state.emit instr, middle.known⟩ := by
  rw [State.emit_eq_put straight]
  refine course.put takes instr 0 typed demands (by simp [straight]) (by simp [noResult])
    external ?_
  rintro dest value rfl
  cases noResult

/-- A course that is continued by an instruction that defines the next value. -/
theorem define (straight : instr.targets = []) {value : Value} (result : instr.result? = some value)
    (isNext : value.id? = some middle.state.nextId)
    (typed : instr.Typed middle.state.function (middle.state.interface signature?))
    (demands : ∀ supply ∈ instr.demands, supply ∈ middle.held)
    (external : ∀ callee ∈ instr.callee?, callee.linkage = .external →
      formatter ∈ middle.state.externals)
    (plain : ∀ dest value, instr ≠ .copy dest value := by simp) :
    Course signature? context before ⟨middle.state.define instr, middle.known⟩ := by
  rw [State.define_eq_put straight]
  refine course.put takes instr 1 typed demands (by simp [straight]) (fun other isResult => ?_)
    external plain
  obtain rfl : value = other := Option.some.inj (result.symm.trans isResult)
  exact ⟨isNext, rfl⟩

theorem jump {target : BlockName} (reaches : middle.Reaches target) :
    Course signature? context before ⟨middle.state.jump target, middle.known⟩ :=
  course.put takes (.jump target) 0 trivial (by simp [Instr.demands, Instr.operands])
    (by simpa [Instr.targets] using reaches) (by simp [Instr.result?]) (by simp [Instr.callee?])

theorem branch {condition : Value} {ifTrue ifFalse : BlockName}
    (typed : condition.HasType middle.state.function (middle.state.interface signature?) .bool)
    (demands : ∀ supply ∈ condition.demands, supply ∈ middle.held) (first : middle.Reaches ifTrue)
    (second : middle.Reaches ifFalse) :
    Course signature? context before ⟨middle.state.branch condition ifTrue ifFalse, middle.known⟩ :=
  course.put takes (.branch condition ifTrue ifFalse) 0 typed
    (by simpa [Instr.demands, Instr.operands] using demands)
    (by simpa [Instr.targets] using ⟨first, second⟩) (by simp [Instr.result?])
      (by simp [Instr.callee?])

end Instructions

section Blocks

variable (course : Course signature? context before middle)
include course

/-- A course that is continued by a new block. -/
theorem block {label : Bytes} (listed : label ∈ blockLabels) :
    Course signature? context before (middle.addBlock label) := by
  refine course.extend (.block label listed) ?_ (fun id old => ?_)
    (course.ready.wellScoped.congr rfl rfl) rfl (State.meaning?_congr rfl rfl) (fun id _ => ?_) rfl
  · exact (course.ready.sound.held_addBlock label).symm.subset
  · exact Function.update_of_ne (Nat.ne_of_lt old) _ _
  · simp [Draft.addBlock, State.addBlock]

/-- A course that turns to a block that is new to it. -/
theorem enter {name : BlockName} (fresh : before.Fresh middle name)
    (ready : before.Ready signature? context)
    (meanings : middle.state.meaning? context = before.state.meaning? context) :
    Course signature? context before ⟨middle.state.enter name, middle.known⟩ := by
  have held : before.held ⊆ Draft.held ⟨middle.state.enter name, middle.known⟩ :=
    fresh.known_eq.symm.subset.trans (subset_supplied _)
  refine
    { moves := Relation.ReflTransGen.tail course.moves (.enter name fresh.below)
      held_subset := held, known_eq := course.known_eq, nextContext_le := course.nextContext_le
      outer := course.outer, untouched := course.untouched, current := .inr fresh.new, ready := ?_ }
  refine ⟨course.ready.sound.enter fresh.below, course.ready.wellScoped.congr rfl rfl,
    course.ready.inside,
    ?_, course.ready.callable⟩
  intro variable_ place means
  have filled := ready.filled variable_ place (meanings ▸ means)
  exact ⟨(course.ready.filled variable_ place means).isResult, filled.isValue, held filled.slot,
    held filled.content⟩

end Blocks

end Course

/-- A draft with new blocks and nothing else. -/
structure Prepares (signature? : Bytes → Option Signature) (context : Nat) (base draft : Draft) :
    Prop where
  /-- It is reached by a course. -/
  course : Course signature? context base draft
  /-- The same is supplied. -/
  held_eq : draft.held = base.held
  /-- The current block is as open as it was. -/
  isOpen_eq : draft.state.isOpen = base.state.isOpen
  /-- No name changes its meaning. -/
  meanings : draft.state.meaning? = base.state.meaning?
  /-- The current block is the same. -/
  current : draft.state.current = base.state.current
  /-- All code is the same. -/
  code_eq : draft.state.function.code = base.state.function.code

namespace Prepares

variable {base draft : Draft} {label : Bytes}

theorem refl (ready : base.Ready signature? context) : Prepares signature? context base base :=
  ⟨.refl ready, rfl, rfl, rfl, rfl, rfl⟩

variable (prepares : Prepares signature? context base draft)
include prepares

theorem block (listed : label ∈ blockLabels) :
    Prepares signature? context base (draft.addBlock label) where
  course := prepares.course.block listed
  held_eq := (prepares.course.ready.sound.held_addBlock label).trans prepares.held_eq
  isOpen_eq := (prepares.course.ready.sound.isOpen_addBlock label).trans prepares.isOpen_eq
  meanings := (State.meaning?_congr rfl rfl).trans prepares.meanings
  current := prepares.current
  code_eq := by
    rw [← prepares.code_eq]
    exact funext fun id => Function.code_newBlock

theorem fresh (label : Bytes) : base.Fresh (draft.addBlock label) (draft.state.blockName label) :=
  .addBlock prepares.course.ready.sound prepares.course.grows.nextBlock_le prepares.held_eq label

theorem stays {name : BlockName} (fresh : base.Fresh draft name) (listed : label ∈ blockLabels) :
    base.Fresh (draft.addBlock label) name :=
  fresh.course ((Course.refl prepares.course.ready).block listed)

/-- Behind new blocks and a jump, a course may turn to one of the blocks. -/
theorem enter {name : BlockName} (fresh : base.Fresh draft name)
    (ready : base.Ready signature? context)
    {left : State} (leaves : Course signature? context draft ⟨left, draft.known⟩)
    (meanings : left.meaning? = draft.state.meaning?) :
    Course signature? context base ⟨left.enter name, draft.known⟩ :=
  (prepares.course.trans leaves).enter (fresh.course leaves) ready
    (by rw [← prepares.meanings, ← meanings])

end Prepares

section Scoping

variable {kind : ScopeKind} {label : Bytes}

/-- A new scope is ready when the one around it is. -/
theorem Draft.Ready.openScope (ready : before.Ready signature? context) :
    Draft.Ready signature? ⟨before.state.openScope context kind label, before.known⟩
      before.state.nextContext where
  sound := ready.sound.note _ (Nat.le_refl _) rfl rfl List.prefix_rfl (.inl rfl)
  wellScoped := ready.wellScoped.openScope ready.inside
  inside := by simp [State.openScope, State.withTable, State.nextContext, ScopeTable.child]
  filled := by
    intro name place means
    rw [ready.wellScoped.meaning?_nextContext ready.inside] at means
    exact (ready.filled name place means).mono (fun _ member => member) fun _ member => member
  callable := by
    intro name signature means
    rw [ready.wellScoped.meaning?_nextContext ready.inside] at means
    exact ready.callable name signature means

/-- What is done in a new scope is a course around it, and changes no meaning there. -/
theorem Course.leaveScope (ready : before.Ready signature? context)
    (course : Course signature? before.state.nextContext
      ⟨before.state.openScope context kind label, before.known⟩ after) :
    Course signature? context before after ∧
      after.state.meaning? context = before.state.meaning? context := by
  have outer : ∀ other < before.state.nextContext,
      after.state.meaning? other = before.state.meaning? other := fun other below =>
    (course.outer other below).trans (ready.wellScoped.meaning?_openScope ready.inside below)
  have contexts : before.state.nextContext ≤ after.state.nextContext := by
    refine Nat.le_trans ?_ course.nextContext_le
    simp [State.openScope, State.withTable, State.nextContext, ScopeTable.child]
  have opens :
    Move signature? True before ⟨before.state.openScope context kind label, before.known⟩ :=
    .note _ (Nat.le_refl _) rfl rfl List.prefix_rfl (.inl rfl)
  have moves : Moves signature? True before after := Relation.ReflTransGen.head opens course.moves
  refine ⟨⟨moves, ?_, course.held_subset, course.known_eq, contexts,
    fun other below => outer other (Nat.lt_trans below ready.inside), course.untouched,
    course.current⟩, outer context ready.inside⟩
  refine ⟨course.ready.sound, course.ready.wellScoped, Nat.lt_of_lt_of_le ready.inside contexts,
    ?_, ?_⟩
  · intro name place means
    rw [outer context ready.inside] at means
    refine (ready.filled name place means).mono (fun value member => ?_) course.held_subset
    exact moves.grows.results_subset ready.sound.numbered member
  · intro name signature means
    rw [outer context ready.inside] at means
    exact ready.callable name signature means

end Scoping

end ScriptCompiler.Lowering
