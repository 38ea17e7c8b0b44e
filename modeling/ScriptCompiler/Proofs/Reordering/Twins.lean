import ScriptCompiler.Proofs.IR.Relocation
import ScriptCompiler.Proofs.Reordering.Growth

/-!
# States of two runs

The same part of a program may be lowered behind different other parts.  Then scopes have other
numbers and string constants have other places, but names stand for the same slots and functions.
Two states that differ in nothing else are twins.  Every step that is taken on both sides leaves
twins behind: the function in the making is the same up to the places of string constants, and what
is added to the tables of the module on one side is there on the other side, too.

Places are compared in the tables that the modules have in the end.
-/

namespace ScriptCompiler.Lowering

open IR Build

/-- What is new in either list is there in the other one, too. -/
structure Additions {α : Type} (old new old' new' : List α) : Prop where
  /-- What is new on the left is on the right. -/
  left : ∀ item ∈ new, item ∈ old ∨ item ∈ new'
  /-- What is new on the right is on the left. -/
  right : ∀ item ∈ new', item ∈ old' ∨ item ∈ new

namespace Additions

variable {α : Type} {old new old' new' more more' : List α}

theorem refl (old old' : List α) : Additions old old old' old' :=
  ⟨fun _ member => .inl member, fun _ member => .inl member⟩

/-- The same item is added to both lists. -/
theorem add (additions : Additions old new old' new') {added : α}
    (both : ∀ item, item ∈ more ↔ item ∈ new ∨ item = added)
    (both' : ∀ item, item ∈ more' ↔ item ∈ new' ∨ item = added) :
    Additions old more old' more' where
  left := by
    intro item member
    rw [both']
    rcases (both item).mp member with earlier | same
    · exact (additions.left item earlier).imp id .inl
    · exact .inr (.inr same)
  right := by
    intro item member
    rw [both]
    rcases (both' item).mp member with earlier | same
    · exact (additions.right item earlier).imp id .inl
    · exact .inr (.inr same)

end Additions

/-- The tables that two runs begin with, and the tables of string constants that they end with. -/
structure Comparison where
  /-- The string constants in the end. -/
  texts : List Bytes
  /-- The string constants at first. -/
  strings : List Bytes
  /-- The declarations at first. -/
  externals : List External
  /-- The string constants of the other run in the end. -/
  texts' : List Bytes
  /-- The string constants of the other run at first. -/
  strings' : List Bytes
  /-- The declarations of the other run at first. -/
  externals' : List External

/-- Where a string constant is in another table. -/
def newPlace (texts texts' : List Bytes) (index : Nat) : Nat :=
  match texts[index]? with
  | some content => texts'.idxOf content
  | none => index

theorem newPlace_idxOf {texts texts' : List Bytes} {content : Bytes} (member : content ∈ texts) :
    newPlace texts texts' (texts.idxOf content) = texts'.idxOf content := by
  have there : texts[texts.idxOf content]? = some content := by
    rw [List.getElem?_eq_getElem (List.idxOf_lt_length_of_mem member), List.getElem_idxOf]
  rw [newPlace, there]

/-- Where a string constant is in the other run. -/
def Comparison.place (comparison : Comparison) : Nat → Nat :=
  newPlace comparison.texts comparison.texts'

/-- A state with scopes inside each other, the innermost first. -/
structure State.Nested (state : State) (contexts : List Nat) : Prop where
  /-- The scopes are well formed, and only the output function is declared. -/
  idle : state.Idle
  /-- The scopes are there. -/
  inside : ∀ context ∈ contexts, context < state.nextContext
  /-- Inner scopes come later. -/
  decreasing : contexts.Pairwise fun inner outer => outer < inner

/-- States that differ in the numbers of scopes and the places of string constants only. -/
structure Twin (comparison : Comparison) (contexts contexts' : List Nat) (state state' : State) :
    Prop where
  /-- The functions in the making are the same up to the places of string constants. -/
  function : state'.function = state.function.relocated comparison.place
  /-- The same block takes instructions. -/
  current : state'.current = state.current
  /-- Names have the same meanings. -/
  meanings : List.Forall₂ (fun context context' => state'.meaning? context' =
    state.meaning? context) contexts contexts'
  /-- The scopes are in order. -/
  nested : state.Nested contexts
  /-- The scopes of the other state are in order. -/
  nested' : state'.Nested contexts'
  /-- The same string constants are added. -/
  strings : Additions comparison.strings state.strings comparison.strings' state'.strings
  /-- The same declarations are added. -/
  externals : Additions comparison.externals state.externals comparison.externals' state'.externals

section Tables

variable {state : State} {content : Bytes}

theorem mem_addFormatter (declared : ∀ external ∈ state.externals, external = formatter)
    {external : External} :
    external ∈ state.addFormatter.externals ↔ external ∈ state.externals ∨
    external = formatter := by
  simp only [State.addFormatter, declareExternal]
  split
  · rename_i known
    obtain ⟨found, member, -⟩ := List.any_eq_true.mp known
    exact ⟨.inl, fun either => either.elim id fun same => by rwa [same, ← declared found member]⟩
  · simp

end Tables

namespace State.Nested

variable {state last : State} {context : Nat} {contexts : List Nat}

theorem congr (nested : state.Nested contexts) (tables : last.table = state.table)
    (slots : last.slots = state.slots) (externals : last.externals = state.externals) :
    last.Nested contexts where
  idle := ⟨nested.idle.wellScoped.congr tables slots, externals ▸ nested.idle.declared⟩
  inside := fun context member => by
    rw [State.nextContext, tables]
    exact nested.inside context member
  decreasing := nested.decreasing

theorem leave (nested : state.Nested (context :: contexts)) : state.Nested contexts :=
  ⟨nested.idle, fun other member => nested.inside other (List.mem_cons_of_mem _ member),
    (List.pairwise_cons.mp nested.decreasing).2⟩

theorem head (nested : state.Nested (context :: contexts)) : context < state.nextContext :=
  nested.inside context List.mem_cons_self

theorem use (nested : state.Nested contexts) (symbol : Symbol) (name : Bytes) :
    (state.use symbol name).Nested contexts where
  idle := ⟨nested.idle.wellScoped.use symbol, nested.idle.declared⟩
  inside := fun context member =>
    Nat.lt_of_lt_of_eq (nested.inside context member) ScopeTable.records_length_update.symm
  decreasing := nested.decreasing

theorem openScope (nested : state.Nested (context :: contexts)) {kind : ScopeKind} {label : Bytes} :
    (state.openScope context kind label).Nested (state.nextContext :: context :: contexts) where
  idle := ⟨nested.idle.wellScoped.openScope nested.head, nested.idle.declared⟩
  inside := by
    have more : (state.openScope context kind label).nextContext = state.nextContext + 1 := by
      simp [State.openScope, State.withTable, State.nextContext, ScopeTable.child]
    rw [more]
    exact List.forall_mem_cons.mpr ⟨Nat.lt_succ_self _, fun other member =>
      Nat.lt_succ_of_lt (nested.inside other member)⟩
  decreasing :=
    List.pairwise_cons.mpr ⟨fun other member => nested.inside other member, nested.decreasing⟩

theorem declare (nested : state.Nested (context :: contexts)) {symbol owned : Symbol}
    (declared : Declares state last context symbol owned)
    (externals : last.externals = state.externals) :
    last.Nested (context :: contexts) where
  idle := ⟨declared.wellScoped nested.idle.wellScoped, externals ▸ nested.idle.declared⟩
  inside := fun other member =>
    Nat.lt_of_lt_of_eq (nested.inside other member) declared.nextContext_eq.symm
  decreasing := nested.decreasing

end State.Nested

/-- Names keep their common meanings where neither side changes them. -/
theorem meanings_mono {contexts contexts' : List Nat} {state state' last last' : State}
    (meanings : List.Forall₂
      (fun context context' => state'.meaning? context' = state.meaning? context) contexts
        contexts')
    (keeps : ∀ context ∈ contexts, last.meaning? context = state.meaning? context)
    (keeps' : ∀ context ∈ contexts', last'.meaning? context = state'.meaning? context) :
    List.Forall₂ (fun context context' => last'.meaning? context' = last.meaning? context) contexts
      contexts' := by
  induction meanings with
  | nil => exact .nil
  | cons same rest ih =>
      obtain ⟨first, others⟩ := List.forall_mem_cons.mp keeps
      obtain ⟨first', others'⟩ := List.forall_mem_cons.mp keeps'
      exact .cons (first'.trans (same.trans first.symm)) (ih others others')

namespace Twin

variable {comparison : Comparison} {context context' : Nat} {contexts contexts' : List Nat}
  {state state' last last' : State}

section Code

variable (twin : Twin comparison contexts contexts' state state')
include twin

/-- Both sides change their functions and nothing else. -/
theorem code (function : last'.function = last.function.relocated comparison.place)
    (current : last'.current = last.current)
    (table : last.table = state.table ∧ last'.table = state'.table)
    (slots : last.slots = state.slots ∧ last'.slots = state'.slots)
    (strings : last.strings = state.strings ∧ last'.strings = state'.strings)
    (externals : last.externals = state.externals ∧ last'.externals = state'.externals) :
    Twin comparison contexts contexts' last last' where
  function := function
  current := current
  meanings := by
    rw [State.meaning?_congr table.1 slots.1, State.meaning?_congr table.2 slots.2]
    exact twin.meanings
  nested := twin.nested.congr table.1 slots.1 externals.1
  nested' := twin.nested'.congr table.2 slots.2 externals.2
  strings := by
    rw [strings.1, strings.2]
    exact twin.strings
  externals := by
    rw [externals.1, externals.2]
    exact twin.externals

theorem nextId : state'.nextId = state.nextId := by
  rw [State.nextId, twin.function]
  rfl

theorem blockName (label : Bytes) : state'.blockName label = state.blockName label := by
  rw [State.blockName, twin.function, Function.newBlock_relocated]
  rfl

theorem isOpen : state'.isOpen = state.isOpen := by
  rw [State.isOpen, twin.function, twin.current, Function.isOpen_relocated]
  rfl

theorem result : state'.function.result = state.function.result := by
  rw [twin.function]
  rfl

theorem emit {instr instr' : Instr} (same : instr' = instr.relocated comparison.place) :
    Twin comparison contexts contexts' (state.emit instr) (state'.emit instr') := by
  refine twin.code ?_ twin.current ⟨rfl, rfl⟩ ⟨rfl, rfl⟩ ⟨rfl, rfl⟩ ⟨rfl, rfl⟩
  simp only [State.emit, twin.function, twin.current, same, Function.append_relocated]

theorem skip : Twin comparison contexts contexts' state.skip state'.skip := by
  refine twin.code ?_ twin.current ⟨rfl, rfl⟩ ⟨rfl, rfl⟩ ⟨rfl, rfl⟩ ⟨rfl, rfl⟩
  simp only [State.skip, twin.function]
  rfl

theorem define {instr instr' : Instr} (same : instr' = instr.relocated comparison.place) :
    Twin comparison contexts contexts' (state.define instr) (state'.define instr') :=
  twin.skip.emit same

theorem addBlock (label : Bytes) :
    Twin comparison contexts contexts' (state.addBlock label) (state'.addBlock label) := by
  refine twin.code ?_ twin.current ⟨rfl, rfl⟩ ⟨rfl, rfl⟩ ⟨rfl, rfl⟩ ⟨rfl, rfl⟩
  simp only [State.addBlock, twin.function, Function.newBlock_relocated]

theorem enter {name name' : BlockName} (same : name' = name) :
    Twin comparison contexts contexts' (state.enter name) (state'.enter name') :=
  twin.code twin.function same ⟨rfl, rfl⟩ ⟨rfl, rfl⟩ ⟨rfl, rfl⟩ ⟨rfl, rfl⟩

theorem connect {target target' : BlockName} (same : target' = target) :
    Twin comparison contexts contexts' (state.connect target) (state'.connect target') := by
  refine twin.code ?_ twin.current ⟨rfl, rfl⟩ ⟨rfl, rfl⟩ ⟨rfl, rfl⟩ ⟨rfl, rfl⟩
  simp only [State.connect, twin.function, twin.current, same, Function.addEdge_relocated]

theorem jump {target target' : BlockName} (same : target' = target) :
    Twin comparison contexts contexts' (state.jump target) (state'.jump target') :=
  (twin.emit (by rw [same]; rfl)).connect same

theorem branch {condition condition' : Value}
    (read : condition' = condition.relocated comparison.place)
    {ifTrue ifTrue' ifFalse ifFalse' : BlockName}
    (first : ifTrue' = ifTrue) (second : ifFalse' = ifFalse) :
    Twin comparison contexts contexts' (state.branch condition ifTrue ifFalse)
      (state'.branch condition' ifTrue' ifFalse') :=
  ((twin.emit (by rw [read, first, second]; rfl)).connect first).connect second

theorem jumpIfOpen {target target' : BlockName} (same : target' = target) :
    Twin comparison contexts contexts' (state.jumpIfOpen target) (state'.jumpIfOpen target') := by
  rw [State.jumpIfOpen, State.jumpIfOpen, twin.isOpen]
  split
  · exact twin.jump same
  · exact twin

theorem opened : Twin comparison contexts contexts' state.opened state'.opened := by
  rw [State.opened, State.opened, twin.isOpen]
  split
  · exact twin
  · exact (twin.addBlock "dead").enter (twin.blockName "dead")

theorem load (slot : Place) :
    Twin comparison contexts contexts' (state.load slot) (state'.load slot) :=
  twin.define (by rw [twin.nextId]; rfl)

theorem store (place : Place) {value value' : Value}
    (same : value' = value.relocated comparison.place) :
    Twin comparison contexts contexts' (state.emit (.store (.slot place) value))
      (state'.emit (.store (.slot place) value')) :=
  twin.emit (by rw [same]; rfl)

/-- A slot is made and filled on both sides. -/
theorem keep (place : Place) {value value' : Value}
    (same : value' = value.relocated comparison.place) :
    Twin comparison contexts contexts' (state.keep place value) (state'.keep place value') := by
  have alloca : Instr.alloca place = (Instr.alloca place).relocated comparison.place := rfl
  exact (twin.define alloca).store place same

theorem invoke (name : Bytes) (result : BasicType) {arguments arguments' : List Value}
    (same : arguments' = arguments.map (Value.relocated comparison.place)) :
    Twin comparison contexts contexts' (state.invoke name result arguments)
      (state'.invoke name result arguments') := by
  rw [State.invoke, State.invoke]
  split
  · exact (twin.emit (by rw [same]; rfl)).skip
  · exact twin.define (by rw [same, twin.nextId]; rfl)

end Code

section Tables

variable (twin : Twin comparison contexts contexts' state state')
include twin

/-- The same string constant is added on both sides. -/
theorem addText {content : Bytes} (fits : (state.addText content).strings <+: comparison.texts)
    (fits' : (state'.addText content).strings <+: comparison.texts') :
    Twin comparison contexts contexts' (state.addText content) (state'.addText content) ∧
      state'.textIndex content = comparison.place (state.textIndex content) := by
  obtain ⟨member, index⟩ := textIndex_of_prefix fits
  obtain ⟨-, index'⟩ := textIndex_of_prefix fits'
  refine ⟨⟨twin.function, twin.current, ?_, twin.nested.congr rfl rfl rfl,
    twin.nested'.congr rfl rfl rfl,
    twin.strings.add (fun _ => mem_addText) (fun _ => mem_addText), twin.externals⟩, ?_⟩
  · have same : (state.addText content).meaning? = state.meaning? := State.meaning?_congr rfl rfl
    have same' : (state'.addText content).meaning? = state'.meaning? := State.meaning?_congr rfl rfl
    rw [same, same']
    exact twin.meanings
  · rw [index, index', Comparison.place, newPlace_idxOf member]

/-- The output function is declared on both sides. -/
theorem addFormatter :
    Twin comparison contexts contexts' state.addFormatter state'.addFormatter where
  function := twin.function
  current := twin.current
  meanings := by
    have same : state.addFormatter.meaning? = state.meaning? := State.meaning?_congr rfl rfl
    have same' : state'.addFormatter.meaning? = state'.meaning? := State.meaning?_congr rfl rfl
    rw [same, same']
    exact twin.meanings
  nested := by
    refine ⟨⟨twin.nested.idle.wellScoped.congr rfl rfl, fun external member => ?_⟩,
      twin.nested.inside, twin.nested.decreasing⟩
    exact ((mem_addFormatter twin.nested.idle.declared).mp member).elim
      (twin.nested.idle.declared external) id
  nested' := by
    refine ⟨⟨twin.nested'.idle.wellScoped.congr rfl rfl, fun external member => ?_⟩,
      twin.nested'.inside, twin.nested'.decreasing⟩
    exact ((mem_addFormatter twin.nested'.idle.declared).mp member).elim
      (twin.nested'.idle.declared external) id
  strings := twin.strings
  externals := twin.externals.add (fun _ => mem_addFormatter twin.nested.idle.declared)
    fun _ => mem_addFormatter twin.nested'.idle.declared

theorem print {format : Bytes} {value value' : Value}
    (same : value' = value.relocated comparison.place)
    (fits : (state.print format value).strings <+: comparison.texts)
    (fits' : (state'.print format value').strings <+: comparison.texts') :
    Twin comparison contexts contexts' (state.print format value) (state'.print format value') := by
  obtain ⟨later, index⟩ := twin.addFormatter.addText fits fits'
  exact (later.emit (by rw [same, index]; rfl)).skip

theorem literal (literal : Literal) (fits : (state.addLiteral literal).strings <+: comparison.texts)
    (fits' : (state'.addLiteral literal).strings <+: comparison.texts') :
    Twin comparison contexts contexts' (state.addLiteral literal) (state'.addLiteral literal) ∧
      literalValue state' literal = (literalValue state literal).relocated comparison.place := by
  cases literal with
  | string content =>
      obtain ⟨later, index⟩ := twin.addText fits fits'
      exact ⟨later, congrArg Value.string index⟩
  | int value => exact ⟨twin.skip, rfl⟩
  | float value => exact ⟨twin.skip, rfl⟩
  | bool value => exact ⟨twin.skip, rfl⟩

end Tables

section Scopes

/-- Names are marked as used on both sides. -/
theorem use (twin : Twin comparison contexts contexts' state state') (symbol symbol' : Symbol)
    (name name' : Bytes) :
    Twin comparison contexts contexts' (state.use symbol name) (state'.use symbol' name') where
  function := twin.function
  current := twin.current
  meanings := by
    rw [twin.nested.idle.wellScoped.meaning?_use, twin.nested'.idle.wellScoped.meaning?_use]
    exact twin.meanings
  nested := twin.nested.use symbol name
  nested' := twin.nested'.use symbol' name'
  strings := twin.strings
  externals := twin.externals

variable (twin : Twin comparison (context :: contexts) (context' :: contexts') state state')
include twin

theorem meaning?_eq : state'.meaning? context' = state.meaning? context :=
  (List.forall₂_cons.mp twin.meanings).1

/-- Behind a scope there is what was before it. -/
theorem leave : Twin comparison contexts contexts' state state' :=
  ⟨twin.function, twin.current, (List.forall₂_cons.mp twin.meanings).2, twin.nested.leave,
    twin.nested'.leave, twin.strings, twin.externals⟩

/-- A scope is opened on both sides. -/
theorem openScope (kind : ScopeKind) (label : Bytes) :
    Twin comparison (state.nextContext :: context :: contexts)
      (state'.nextContext :: context' :: contexts') (state.openScope context kind label)
      (state'.openScope context' kind label) where
  function := twin.function
  current := twin.current
  meanings := by
    have tableOrdered := twin.nested.idle.wellScoped
    have tableOrdered' := twin.nested'.idle.wellScoped
    refine .cons ?_ ?_
    · rw [tableOrdered.meaning?_nextContext twin.nested.head,
        tableOrdered'.meaning?_nextContext twin.nested'.head]
      exact twin.meaning?_eq
    · exact meanings_mono twin.meanings
        (fun other member =>
          tableOrdered.meaning?_openScope twin.nested.head (twin.nested.inside other member))
        fun other member =>
          tableOrdered'.meaning?_openScope twin.nested'.head (twin.nested'.inside other member)
  nested := twin.nested.openScope
  nested' := twin.nested'.openScope
  strings := twin.strings
  externals := twin.externals

/-- A variable or parameter is declared on both sides and holds the same value. -/
theorem hold {symbol owned symbol' owned' : Symbol} {table table' : ScopeTable} {type : BasicType}
    {value value' : Value} (names : symbol'.name = symbol.name)
    (assignable : symbol.isAssignable = true) (assignable' : symbol'.isAssignable = true)
    (plain : ∃ type, symbol.type = some (.basic type))
    (plain' : ∃ type, symbol'.type = some (.basic type))
    (declares : state.table.declare context symbol = .ok (owned, table))
    (declares' : state'.table.declare context' symbol' = .ok (owned', table'))
    (same : value' = value.relocated comparison.place) :
    Twin comparison (context :: contexts) (context' :: contexts')
      ((state.withTable table).hold owned type value)
      ((state'.withTable table').hold owned' type value') := by
  obtain ⟨-, isOwned, -⟩ := ScopeTable.declare_ok declares
  obtain ⟨-, isOwned', -⟩ := ScopeTable.declare_ok declares'
  have ownedName : owned.name = symbol.name := by rw [isOwned]
  have ownedNames : owned'.name = owned.name := by rw [isOwned', ownedName, ← names]
  obtain ⟨declared, means⟩ : Declares state ((state.withTable table).hold owned type value) context
      symbol owned ∧ ((state.withTable table).hold owned type value).meaning owned =
        .variable ⟨state.nextId, owned.name, type⟩ :=
    Declares.of_slot twin.nested.head assignable plain declares rfl
  obtain ⟨declared', means'⟩ : Declares state' ((state'.withTable table').hold owned' type value')
      context' symbol' owned' ∧ ((state'.withTable table').hold owned' type value').meaning owned' =
        .variable ⟨state'.nextId, owned'.name, type⟩ :=
    Declares.of_slot twin.nested'.head assignable' plain' declares' rfl
  have tableOrdered := twin.nested.idle.wellScoped
  have tableOrdered' := twin.nested'.idle.wellScoped
  have stored := twin.keep ⟨state.nextId, owned.name, type⟩ same
  refine ⟨?_, twin.current, .cons ?_ ?_, twin.nested.declare declared rfl,
    twin.nested'.declare declared' rfl, twin.strings, twin.externals⟩
  · simp only [State.hold, State.bindSlot]
    rw [show (state'.withTable table').nextId = state.nextId from twin.nextId, ownedNames]
    exact stored.function
  · funext name
    rw [declared.meaning?_self tableOrdered, declared'.meaning?_self tableOrdered', means,
      means', names,
      ownedNames, twin.nextId, twin.meaning?_eq]
  · have outer := (List.pairwise_cons.mp twin.nested.decreasing).1
    have outer' := (List.pairwise_cons.mp twin.nested'.decreasing).1
    exact meanings_mono twin.leave.meanings
      (fun other member => declared.meaning?_of_lt tableOrdered (outer other member))
      fun other member => declared'.meaning?_of_lt tableOrdered' (outer' other member)

end Scopes

end Twin

end ScriptCompiler.Lowering
