import Mathlib.Data.List.Forall2
import Mathlib.Data.List.Nodup
import ScriptCompiler.Proofs.Preservation.Points
import ScriptCompiler.Proofs.Statics.Rules

/-!
# Variables and their slots

The scopes of the source are mirrored by layers of stack slots: each variable of a scope has a slot
of its own, which holds its value.  Layers are bound to the contexts of lowering when every name
stands for the slot that the nearest layer gives it, or for a function where no layer has it.
-/

namespace ScriptCompiler.Lowering

open IR Semantics

/-- The variables of one scope and the slots that hold them. -/
abbrev Layer := List (Bytes × Place)

/-- What a name stands for in layers of variables, with functions around them. -/
def denote (signature? : Bytes → Option Signature) : List Layer → Bytes → Option Meaning
  | [], name => (signature? name).map .function
  | layer :: layers, name => ((layer.lookup name).map .variable).or (denote signature? layers name)

/-- The numbers of the slots in layers. -/
def slotIds (layers : List Layer) : List Nat := layers.flatten.map fun entry => entry.2.id

@[simp]
theorem slotIds_cons (layer : Layer) (layers : List Layer) :
    slotIds (layer :: layers) = layer.map (fun entry => entry.2.id) ++ slotIds layers := by
  simp [slotIds]

section Meanings

variable {signature? : Bytes → Option Signature} {layers : List Layer} {name : Bytes}

theorem signature?_of_denote {signature : Signature}
    (denotes : denote signature? layers name = some (.function signature)) :
    signature? name = some signature := by
  induction layers with
  | nil =>
      obtain ⟨found, known, same⟩ := Option.map_eq_some_iff.mp denotes
      cases same
      exact known
  | cons layer layers ih =>
      rw [denote, Option.or_eq_some_iff] at denotes
      rcases denotes with here | ⟨-, outer⟩
      · obtain ⟨place, -, same⟩ := Option.map_eq_some_iff.mp here
        cases same
      · exact ih outer

theorem signature?_of_denote_none (denotes : denote signature? layers name = none) :
    signature? name = none := by
  induction layers with
  | nil => exact Option.map_eq_none_iff.mp denotes
  | cons layer layers ih => exact ih (Option.or_eq_none_iff.mp denotes).2

theorem mem_slotIds_of_denote {place : Place}
    (denotes : denote signature? layers name = some (.variable place)) :
    place.id ∈ slotIds layers := by
  induction layers with
  | nil =>
      obtain ⟨signature, -, same⟩ := Option.map_eq_some_iff.mp denotes
      cases same
  | cons layer layers ih =>
      rw [denote, Option.or_eq_some_iff] at denotes
      rw [slotIds_cons, List.mem_append]
      rcases denotes with here | ⟨-, outer⟩
      · obtain ⟨found, there, same⟩ := Option.map_eq_some_iff.mp here
        cases same
        obtain ⟨earlier, later, rfl, -⟩ := List.lookup_eq_some_iff.mp there
        exact .inl (by simp)
      · exact .inr (ih outer)

end Meanings

/-- The names of the contexts stand for what the layers say. -/
inductive State.Layered (signature? : Bytes → Option Signature) (state : State) :
    List Nat → List Layer → Prop where
  | nil : Layered signature? state [] []
  | cons {context : Nat} {contexts : List Nat} {layer : Layer} {layers : List Layer}
      (outer : ∀ other ∈ contexts, other < context)
      (means : ∀ name, state.meaning? context name = denote signature? (layer :: layers) name)
      (rest : Layered signature? state contexts layers) :
      Layered signature? state (context :: contexts) (layer :: layers)

/-- Layers are bound to contexts: names stand for what the layers say, and slots and names are told
apart. -/
structure State.Binds (signature? : Bytes → Option Signature) (state : State) (contexts : List Nat)
    (layers : List Layer) : Prop where
  /-- Names stand for what the layers say. -/
  layered : state.Layered signature? contexts layers
  /-- No slot is taken twice. -/
  nodup : (slotIds layers).Nodup
  /-- The numbers of slots are taken. -/
  below : ∀ id ∈ slotIds layers, id < state.nextId
  /-- In a layer no name is taken twice. -/
  names : ∀ layer ∈ layers, (layer.map Prod.fst).Nodup

namespace State.Binds

variable {signature? : Bytes → Option Signature} {state after : State} {context : Nat}
  {contexts : List Nat} {layer : Layer} {layers : List Layer} {name : Bytes}

/-- Bindings last while the contexts mean the same. -/
theorem mono (binds : state.Binds signature? contexts layers)
    (means : ∀ other ∈ contexts, after.meaning? other = state.meaning? other)
    (ids : state.nextId ≤ after.nextId) : after.Binds signature? contexts layers where
  layered := by
    obtain ⟨layered, -, -, -⟩ := binds
    induction layered with
    | nil => exact .nil
    | cons outer stands rest ih =>
        refine .cons outer (fun name => ?_)
          (ih fun other member => means other (List.mem_cons_of_mem _ member))
        rw [means _ List.mem_cons_self, stands]
  nodup := binds.nodup
  below := fun id member => Nat.lt_of_lt_of_le (binds.below id member) ids
  names := binds.names

theorem meaning?_eq (binds : state.Binds signature? (context :: contexts) layers) (name : Bytes) :
    state.meaning? context name = denote signature? layers name := by
  cases binds.layered with
  | cons outer means rest => exact means name

theorem lt (binds : state.Binds signature? (context :: contexts) layers) :
    ∀ other ∈ contexts, other < context := by
  cases binds.layered with
  | cons outer means rest => exact outer

/-- Behind a scope there are the layers around it. -/
theorem leave (binds : state.Binds signature? (context :: contexts) (layer :: layers)) :
    state.Binds signature? contexts layers where
  layered := by
    cases binds.layered with
    | cons outer means rest => exact rest
  nodup := (List.nodup_append.mp (slotIds_cons layer layers ▸ binds.nodup)).2.1
  below := fun id member =>
    binds.below id (slotIds_cons layer layers ▸ List.mem_append_right _ member)
  names := fun other member => binds.names other (List.mem_cons_of_mem _ member)

/-- A new scope has an empty layer. -/
theorem openScope (binds : state.Binds signature? (context :: contexts) layers)
    (wellScoped : state.WellScoped) (inside : context < state.nextContext) {kind : ScopeKind}
    {label : Bytes} :
    (state.openScope context kind label).Binds signature?
      (state.nextContext :: context :: contexts) ([] :: layers) where
  layered := by
    have older : ∀ other ∈ context :: contexts, other < state.nextContext := by
      intro other member
      rcases List.mem_cons.mp member with rfl | member
      · exact inside
      · exact Nat.lt_trans (binds.lt other member) inside
    refine .cons older (fun name => ?_) ?_
    · rw [wellScoped.meaning?_nextContext inside, binds.meaning?_eq]
      rfl
    · exact (binds.mono
        (fun other member => wellScoped.meaning?_openScope inside (older other member))
        (Nat.le_refl _)).layered
  nodup := binds.nodup
  below := binds.below
  names := List.forall_mem_cons.mpr ⟨List.nodup_nil, binds.names⟩

/-- A new variable is added to the innermost layer. -/
theorem declare (binds : state.Binds signature? (context :: contexts) (layer :: layers))
    {place : Place}
    (rebinds : state.Rebinds after context name place) (fresh : name ∉ layer.map Prod.fst)
    (outer : ∀ other < context, after.meaning? other = state.meaning? other)
    (isNew : state.nextId ≤ place.id) (taken : place.id < after.nextId) :
    after.Binds signature? (context :: contexts) ((layer ++ [(name, place)]) :: layers) where
  layered := by
    refine .cons binds.lt (fun other => ?_) ?_
    · have absent : layer.lookup name = none := by
        rw [List.lookup_eq_none_iff]
        intro entry member
        have differ : name ≠ entry.1 := fun same => fresh (same ▸ List.mem_map_of_mem member)
        simpa using differ
      have found : (layer ++ [(name, place)]).lookup other =
          (layer.lookup other).or (if other = name then some place else none) := by
        rw [List.lookup_append, List.lookup_cons, List.lookup_nil]
        by_cases same : other = name <;> simp [same, beq_eq_false_iff_ne.mpr]
      rw [rebinds, binds.meaning?_eq, denote, denote, found]
      by_cases same : other = name
      · subst same
        simp [absent]
      · simp [same]
    · exact (binds.leave.mono (fun other member => outer other (binds.lt other member))
        (by omega)).layered
  nodup := by
    have old : place.id ∉ slotIds (layer :: layers) := fun member =>
      Nat.not_lt.mpr isNew (binds.below _ member)
    have moved : (slotIds ((layer ++ [(name, place)]) :: layers)).Perm
        (place.id :: slotIds (layer :: layers)) := by
      simp only [slotIds_cons, List.map_append, List.map_cons, List.map_nil, List.append_assoc,
        List.singleton_append]
      exact List.perm_middle
    exact moved.nodup_iff.mpr (List.nodup_cons.mpr ⟨old, binds.nodup⟩)
  below := by
    intro id member
    simp only [slotIds_cons, List.map_append, List.mem_append, List.map_cons, List.map_nil,
      List.mem_singleton] at member
    have old : ∀ id ∈ slotIds (layer :: layers), id < after.nextId := fun id member =>
      Nat.lt_of_lt_of_le (binds.below id member) (by omega)
    simp only [slotIds_cons, List.mem_append] at old
    rcases member with (here | rfl) | there
    · exact old id (.inl here)
    · exact taken
    · exact old id (.inr there)
  names := by
    obtain ⟨first, rest⟩ := List.forall_mem_cons.mp binds.names
    refine List.forall_mem_cons.mpr ⟨?_, rest⟩
    rw [List.map_append, List.nodup_append]
    refine ⟨first, by simp, fun other member last isLast same => ?_⟩
    obtain rfl := List.mem_singleton.mp isLast
    exact fresh (same ▸ member)

end State.Binds

end ScriptCompiler.Lowering

namespace ScriptCompiler.IR

open Lowering Semantics

section Frames

variable {Double : Type} {frame frame' : Frame Double} {layer : Layer} {layers : List Layer}
  {scope : Scope Double} {scopes : List (Scope Double)} {name : Bytes} {place : Place}
  {datum : Datum Double}

/-- The slot of a variable holds its value, which has the type of the slot. -/
def Frame.Stores (frame : Frame Double) (slot : Bytes × Place) (variable_ : Bytes × Datum Double) :
    Prop :=
  slot.1 = variable_.1 ∧ frame.slots slot.2.id = some (some variable_.2) ∧
    variable_.2.type = slot.2.type

/-- The slots in layers hold the variables of scopes; further scopes are empty. -/
inductive Frame.Mirrors (frame : Frame Double) : List Layer → List (Scope Double) → Prop where
  | outermost {scopes : List (Scope Double)} (empty : ∀ scope ∈ scopes, scope = []) :
      Mirrors frame [] scopes
  | inner {layer : Layer} {layers : List Layer} {scope : Scope Double}
      {scopes : List (Scope Double)}
      (stores : List.Forall₂ frame.Stores layer scope) (rest : Mirrors frame layers scopes) :
      Mirrors frame (layer :: layers) (scope :: scopes)

theorem lookup_of_stores (stores : List.Forall₂ frame.Stores layer scope) :
    (layer.lookup name = none → scope.lookup name = none) ∧
      ∀ place, layer.lookup name = some place → ∃ datum, scope.lookup name = some datum ∧
        frame.slots place.id = some (some datum) ∧ datum.type = place.type := by
  induction stores with
  | nil => exact ⟨fun _ => rfl, nofun⟩
  | @cons slot variable_ slots others first rest ih =>
      obtain ⟨other, place⟩ := slot
      obtain ⟨_, datum⟩ := variable_
      obtain ⟨rfl, holds, typed⟩ := first
      rw [List.lookup_cons, List.lookup_cons]
      cases name == other with
      | true =>
          refine ⟨nofun, ?_⟩
          rintro _ ⟨⟩
          exact ⟨datum, rfl, holds, typed⟩
      | false => exact ih

/-- Only the slots of a layer matter to it. -/
theorem stores_congr (stores : List.Forall₂ frame.Stores layer scope)
    (same : ∀ slot ∈ layer, frame'.slots slot.2.id = frame.slots slot.2.id) :
    List.Forall₂ frame'.Stores layer scope := by
  obtain ⟨lengths, each⟩ := List.forall₂_iff_zip.mp stores
  refine List.forall₂_iff_zip.mpr ⟨lengths, fun {slot other} member => ?_⟩
  obtain ⟨named, holds, typed⟩ := each member
  exact ⟨named, (same slot (List.of_mem_zip member).1).trans holds, typed⟩

/-- The slot of a variable is filled with its new value. -/
theorem stores_fill (stores : List.Forall₂ frame.Stores layer scope)
    (names : (layer.map Prod.fst).Nodup) (ids : (layer.map fun entry => entry.2.id).Nodup)
    (found : layer.lookup name = some place) (typed : datum.type = place.type) :
    List.Forall₂ (frame.fill place datum).Stores layer
      (scope.map fun entry => if name == entry.1 then (entry.1, datum) else entry) := by
  have there : (name, place) ∈ layer := by
    obtain ⟨earlier, later, rfl, -⟩ := List.lookup_eq_some_iff.mp found
    simp
  obtain ⟨lengths, each⟩ := List.forall₂_iff_zip.mp stores
  refine List.forall₂_map_right_iff.mpr (List.forall₂_iff_zip.mpr ⟨lengths, ?_⟩)
  intro slot other member
  obtain ⟨named, holds, fits⟩ := each member
  have slotMem := (List.of_mem_zip member).1
  by_cases same : name = other.1
  · obtain rfl : slot = (name, place) :=
      List.inj_on_of_nodup_map names slotMem there (named.trans same.symm)
    rw [if_pos (by simpa using same)]
    exact ⟨named, Function.update_self _ _ _, typed⟩
  · rw [if_neg (by simpa using same)]
    have elsewhere : slot.2.id ≠ place.id := fun sameId =>
      same (by rw [← named, List.inj_on_of_nodup_map ids slotMem there sameId])
    exact ⟨named, (Function.update_of_ne elsewhere _ _).trans holds, fits⟩

namespace Frame.Mirrors

/-- The value of a variable is in its slot. -/
theorem read (mirrors : frame.Mirrors layers scopes) {signature? : Bytes → Option Signature}
    (denotes : denote signature? layers name = some (.variable place)) :
    ∃ datum, readScopes scopes name = some datum ∧ frame.slots place.id = some (some datum) ∧
      datum.type = place.type := by
  induction mirrors with
  | outermost empty =>
      obtain ⟨signature, -, same⟩ := Option.map_eq_some_iff.mp denotes
      cases same
  | @inner layer layers scope scopes stores rest ih =>
      obtain ⟨absent, present⟩ := lookup_of_stores stores
      rw [denote, Option.or_eq_some_iff] at denotes
      rw [readScopes, List.findSome?_cons]
      rcases denotes with here | ⟨nothing, outer⟩
      · obtain ⟨found, there, same⟩ := Option.map_eq_some_iff.mp here
        cases same
        obtain ⟨datum, isDatum, holds⟩ := present _ there
        exact ⟨datum, by rw [isDatum], holds⟩
      · rw [absent (Option.map_eq_none_iff.mp nothing)]
        exact ih outer

/-- Only the slots in the layers matter. -/
theorem congr (mirrors : frame.Mirrors layers scopes)
    (same : ∀ id ∈ slotIds layers, frame'.slots id = frame.slots id) :
    frame'.Mirrors layers scopes := by
  induction mirrors with
  | outermost empty => exact .outermost empty
  | @inner layer layers scope scopes stores rest ih =>
      rw [slotIds_cons] at same
      exact .inner (stores_congr stores fun slot member => same _ (List.mem_append_left _
        (List.mem_map_of_mem member)))
          (ih fun id member => same id (List.mem_append_right _ member))

/-- A variable with a new value. -/
theorem write (mirrors : frame.Mirrors layers scopes) {signature? : Bytes → Option Signature}
    (denotes : denote signature? layers name = some (.variable place))
    (nodup : (slotIds layers).Nodup)
    (names : ∀ layer ∈ layers, (layer.map Prod.fst).Nodup) (typed : datum.type = place.type) :
    (frame.fill place datum).Mirrors layers (writeScopes name datum scopes) := by
  induction mirrors with
  | outermost empty =>
      obtain ⟨signature, -, same⟩ := Option.map_eq_some_iff.mp denotes
      cases same
  | @inner layer layers scope scopes stores rest ih =>
      obtain ⟨absent, present⟩ := lookup_of_stores stores
      obtain ⟨firstNames, restNames⟩ := List.forall_mem_cons.mp names
      rw [slotIds_cons, List.nodup_append] at nodup
      obtain ⟨inLayer, inLayers, apart⟩ := nodup
      have others : ∀ id, id ≠ place.id → (frame.fill place datum).slots id = frame.slots id :=
        fun id differ => Function.update_of_ne differ _ _
      rw [denote, Option.or_eq_some_iff] at denotes
      rw [writeScopes]
      rcases denotes with here | ⟨nothing, outer⟩
      · obtain ⟨found, there, same⟩ := Option.map_eq_some_iff.mp here
        cases same
        obtain ⟨held, isHeld, -⟩ := present _ there
        rw [isHeld, if_pos (by rfl)]
        have member : place.id ∈ layer.map fun entry => entry.2.id := by
          obtain ⟨earlier, later, rfl, -⟩ := List.lookup_eq_some_iff.mp there
          simp
        exact .inner (stores_fill stores firstNames inLayer there typed)
          (rest.congr fun id within => others id fun same => apart place.id member id within
            same.symm)
      · rw [absent (Option.map_eq_none_iff.mp nothing), if_neg (by simp)]
        have outside := mem_slotIds_of_denote outer
        refine .inner (stores_congr stores fun slot member => others _ fun same => ?_)
          (ih outer inLayers restNames)
        exact apart slot.2.id (List.mem_map_of_mem member) place.id outside same

/-- A new variable in the innermost scope. -/
theorem declare (mirrors : frame.Mirrors (layer :: layers) scopes)
    (same : ∀ id ∈ slotIds (layer :: layers), frame'.slots id = frame.slots id)
    (holds : frame'.slots place.id = some (some datum)) (typed : datum.type = place.type) :
    frame'.Mirrors ((layer ++ [(name, place)]) :: layers)
      (scopes.modifyHead fun scope => scope ++ [(name, datum)]) := by
  cases mirrors.congr same with
  | inner stores rest => exact .inner (List.rel_append stores (.cons ⟨rfl, holds, typed⟩ .nil)) rest

/-- A new scope is empty. -/
theorem push (mirrors : frame.Mirrors layers scopes) :
    frame.Mirrors ([] :: layers) ([] :: scopes) :=
  .inner .nil mirrors

/-- What is behind the innermost scope. -/
theorem pop (mirrors : frame.Mirrors (layer :: layers) scopes) :
    frame.Mirrors layers scopes.tail := by
  cases mirrors with
  | inner stores rest => exact rest

end Frame.Mirrors

/-- What a frame keeps while something is evaluated: the arguments, the results below a limit, and
the slots that are there. -/
structure Frame.Kept (limit : Nat) (frame frame' : Frame Double) : Prop where
  /-- The arguments stay. -/
  arguments : frame'.arguments = frame.arguments
  /-- Results below the limit stay. -/
  temps : ∀ id < limit, frame'.temps id = frame.temps id
  /-- Slots stay. -/
  slots : ∀ id, (frame.slots id).isSome → (frame'.slots id).isSome

namespace Frame.Kept

variable {limit limit' : Nat} {frame'' : Frame Double}

theorem refl (limit : Nat) (frame : Frame Double) : frame.Kept limit frame :=
  ⟨rfl, fun _ _ => rfl, fun _ there => there⟩

theorem trans (first : frame.Kept limit frame') (second : frame'.Kept limit' frame'')
    (le : limit ≤ limit') : frame.Kept limit frame'' :=
  ⟨second.arguments.trans first.arguments,
    fun id below => (second.temps id (Nat.lt_of_lt_of_le below le)).trans (first.temps id below),
    fun id there => second.slots id (first.slots id there)⟩

theorem define (frame : Frame Double) {temp : Temp} (datum : Datum Double) (new : limit ≤ temp.id) :
    frame.Kept limit (frame.define temp datum) :=
  ⟨rfl, fun _ below => Function.update_of_ne (Nat.ne_of_lt (Nat.lt_of_lt_of_le below new)) _ _,
    fun _ there => there⟩

theorem fill (limit : Nat) (frame : Frame Double) (place : Place) (datum : Datum Double) :
    frame.Kept limit (frame.fill place datum) := by
  refine ⟨rfl, fun _ _ => rfl, fun id there => ?_⟩
  by_cases same : id = place.id
  · simp [Frame.fill, same]
  · simpa only [Frame.fill, Function.update_of_ne same] using there

theorem make (limit : Nat) (frame : Frame Double) (place : Place) :
    frame.Kept limit (frame.make place) := by
  refine ⟨rfl, fun _ _ => rfl, fun id there => ?_⟩
  by_cases same : id = place.id
  · simp [Frame.make, same]
  · simpa only [Frame.make, Function.update_of_ne same] using there

theorem keep (limit : Nat) (frame : Frame Double) (place : Place) (datum : Datum Double) :
    frame.Kept limit ((frame.make place).fill place datum) :=
  (make limit frame place).trans (fill limit _ place datum) (Nat.le_refl limit)

/-- What could be read can still be read. -/
theorem datum?_eq (kept : frame.Kept limit frame') {machine : Machine Double} {strings : List Bytes}
    {value : Value} (below : ∀ temp, value = .temp temp → temp.id < limit) :
    value.datum? machine strings frame' = value.datum? machine strings frame := by
  cases value with
  | temp temp => exact kept.temps temp.id (below temp rfl)
  | param place => exact congrArg (fun arguments => arguments[place.id]?) kept.arguments
  | constant | slot | string | stray => rfl

end Frame.Kept

end Frames

end ScriptCompiler.IR
