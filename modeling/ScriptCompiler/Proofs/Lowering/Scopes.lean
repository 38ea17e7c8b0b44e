import ScriptCompiler.Proofs.Lowering.Inversion

/-!
# What names stand for

A scope table is well ordered when every parent stands before its children; then a name resolves in
a context to what the context itself declares or else to what the name resolves to in the parent.
In the course of lowering a name stands for a slot or for a function.  The lemmas say how opening a
scope, declaring a variable and using a name change what names stand for: a declaration is seen in
its own context and never in an outer one.
-/

namespace ScriptCompiler

namespace ScopeTable

/-- Every parent stands before its children. -/
def Ordered (table : ScopeTable) : Prop :=
  ∀ (context : Nat) (record : ScopeRecord) (parent : Nat), table.record? context = some record →
    record.parent = some parent → parent < context

/-- The enclosing context of a context. -/
def parent? (table : ScopeTable) (context : Nat) : Option Nat :=
  table.record? context >>= ScopeRecord.parent

variable {table table' : ScopeTable} {context : Nat} {name : Bytes}

/-- More steps than the context has ancestors make no difference. -/
theorem chainWithin_eq_chain (ordered : table.Ordered) {steps : Nat} (enough : context < steps) :
    table.chainWithin steps context = table.chain context := by
  suffices ∀ (context first second : Nat), context < first → context < second →
      table.chainWithin first context = table.chainWithin second context from
    this context steps (context + 1) enough (Nat.lt_succ_self context)
  intro context
  induction context using Nat.strongRecOn with
  | ind context ih =>
      intro first second firstEnough secondEnough
      obtain ⟨first, rfl⟩ :=
        Nat.exists_eq_succ_of_ne_zero (Nat.ne_of_gt (Nat.zero_lt_of_lt firstEnough))
      obtain ⟨second, rfl⟩ :=
        Nat.exists_eq_succ_of_ne_zero (Nat.ne_of_gt (Nat.zero_lt_of_lt secondEnough))
      simp only [chainWithin]
      cases found : table.record? context with
      | none => rfl
      | some record =>
          cases above : record.parent with
          | none => simp only [above]
          | some parent =>
              have below := ordered context record parent found above
              simp only [above]
              rw [ih parent below first second (by omega) (by omega)]

/-- A name resolves to what the context declares or to what it resolves to in the parent. -/
theorem find?_eq (ordered : table.Ordered) :
    table.find? context name =
      (table.local? context name).or
        ((table.parent? context).bind fun parent => table.find? parent name) := by
  rw [find?, chain, chainWithin]
  simp only [local?, parent?]
  cases found : table.record? context with
  | none => rfl
  | some record =>
      simp only [List.findSome?_cons, found, Option.bind_eq_bind, Option.bind_some]
      cases record.find? name with
      | some symbol => rfl
      | none =>
          cases above : record.parent with
          | none => rfl
          | some parent =>
              have below := ordered context record parent found above
              simp only [Option.none_or, Option.bind_some]
              rw [chainWithin_eq_chain ordered below, find?]
              rfl

/-- Tables with the same parents that declare alike up to a context resolve alike from there. -/
theorem map_find?_congr {α : Type} {view view' : Symbol → α} (ordered : table.Ordered)
    (ordered' : table'.Ordered) {last : Nat}
    (parents : ∀ context ≤ last, table'.parent? context = table.parent? context)
    (locals : ∀ context ≤ last,
      (table'.local? context name).map view' = (table.local? context name).map view) :
    (table'.find? last name).map view' = (table.find? last name).map view := by
  induction last using Nat.strongRecOn with
  | ind last ih =>
      rw [find?_eq ordered', find?_eq ordered, parents last (Nat.le_refl last), Option.map_or,
        Option.map_or, locals last (Nat.le_refl last)]
      congr 1
      cases above : table.parent? last with
      | none => rfl
      | some parent =>
          have below : parent < last := by
            obtain ⟨record, found, isParent⟩ := Option.bind_eq_some_iff.mp above
            exact ordered last record parent found isParent
          exact ih parent below (fun context le => parents context (by omega))
            fun context le => locals context (by omega)

section Update

variable {change : ScopeRecord → ScopeRecord} {other : Nat}

theorem record?_update :
    (table.update context change).record? other =
      (table.record? other).map fun record => if other = context then
        change record else record := by
  simp only [update, record?, List.getElem?_modify]
  cases table.records[other]? with
  | none => simp
  | some record =>
      by_cases same : other = context
      · simp [same]
      · have differ : context ≠ other := fun equal => same equal.symm
        simp [same, differ]

theorem parent?_update (keeps : ∀ record, (change record).parent = record.parent) :
    (table.update context change).parent? other = table.parent? other := by
  simp only [parent?, record?_update]
  cases table.record? other with
  | none => rfl
  | some record => by_cases same : other = context <;> simp [same, keeps]

theorem Ordered.update (ordered : table.Ordered)
    (keeps : ∀ record, (change record).parent = record.parent) :
    (table.update context change).Ordered := by
  intro other record parent found above
  rw [record?_update] at found
  obtain ⟨old, oldFound, rfl⟩ := Option.map_eq_some_iff.mp found
  refine ordered other old parent oldFound ?_
  by_cases same : other = context
  · simpa [same, keeps] using above
  · simpa [same] using above

theorem records_length_update :
    (table.update context change).records.length = table.records.length := by
  simp [update]

theorem local?_update_of_ne (differ : other ≠ context) :
    (table.update context change).local? other name = table.local? other name := by
  simp only [local?, record?_update, differ, if_false, Option.map_id']

end Update

section Child

variable {parent other : Nat} {kind : ScopeKind} {label : Bytes}

theorem record?_child (below : other < table.records.length) :
    (table.child parent kind label).2.record? other = table.record? other := by
  simp [child, record?, List.getElem?_append_left below]

theorem record?_child_self (table : ScopeTable) (parent : Nat) (kind : ScopeKind) (label : Bytes) :
    ∃ depth, (table.child parent kind label).2.record? table.records.length =
      some { parent := some parent, label, kind, depth } := by
  simp [child, record?]

theorem Ordered.child (ordered : table.Ordered) (below : parent < table.records.length) :
    (table.child parent kind label).2.Ordered := by
  intro other record above found isParent
  rcases Nat.lt_trichotomy other table.records.length with old | new | beyond
  · rw [record?_child old] at found
    exact ordered other record above found isParent
  · subst new
    obtain ⟨depth, self⟩ := table.record?_child_self parent kind label
    rw [self] at found
    cases found
    cases isParent
    exact below
  · have missing : (table.child parent kind label).2.record? other = none := by
      simp only [ScopeTable.child, record?, List.getElem?_eq_none_iff, List.length_append,
        List.length_singleton]
      omega
    rw [missing] at found
    cases found

end Child

section Declare

variable {symbol owned : Symbol}

/-- What a successful declaration has done. -/
theorem declare_ok (declares : table.declare context symbol = .ok (owned, table')) :
    table.local? context symbol.name = none ∧
      owned = { symbol with
        context := context
        index := ((table.record? context).map fun record => record.symbols.length).getD 0 } ∧
      table' = table.update context fun record =>
        { record with symbols := record.symbols ++ [owned] } := by
  unfold declare at declares
  cases there : table.local? context symbol.name with
  | some existing =>
      rw [there] at declares
      cases declares
  | none =>
      rw [there] at declares
      obtain ⟨rfl, rfl⟩ := Prod.mk.inj (Except.ok.inj declares)
      exact ⟨rfl, rfl, rfl⟩

theorem local?_declare (declares : table.declare context symbol = .ok (owned, table'))
    (inside : context < table.records.length) (name : Bytes) :
    table'.local? context name =
      if name = symbol.name then some owned else table.local? context name := by
  obtain ⟨absent, isOwned, rfl⟩ := declare_ok declares
  have sameName : owned.name = symbol.name := by rw [isOwned]
  obtain ⟨record, found⟩ : ∃ record, table.record? context = some record :=
    ⟨_, List.getElem?_eq_getElem inside⟩
  simp only [local?, found, Option.bind_eq_bind, Option.bind_some] at absent
  simp only [local?, record?_update, found, if_true, Option.map_some, Option.bind_eq_bind,
    Option.bind_some]
  simp only [ScopeRecord.find?, List.find?_append] at absent ⊢
  by_cases same : name = symbol.name
  · subst same
    simp [absent, sameName]
  · have differ : ¬ symbol.name = name := fun equal => same equal.symm
    simp [same, sameName, differ]

end Declare

end ScopeTable

namespace Lowering

open IR

/-- What a name stands for. -/
inductive Meaning where
  /-- A variable or parameter, which is kept in a slot. -/
  | variable (place : Place)
  /-- A function. -/
  | function (signature : Signature)

/-- The content of a symbol apart from its place and its use: a slot or a function. -/
def State.meaning (state : State) (symbol : Symbol) : Meaning :=
  if symbol.kind = .function then
    .function ((symbol.type >>= Ty.signature?).getD { params := [], result := .invalid })
  else .variable ((state.slot? symbol).getD ⟨0, symbol.name, .invalid⟩)

/-- What a name stands for in a context. -/
def State.meaning? (state : State) (context : Context) (name : Bytes) : Option Meaning :=
  (state.table.find? context name).map state.meaning

/-- A symbol at a place of a context: it knows its place, a function has a signature, and everything
else can be assigned to and has a slot. -/
structure State.Placed (state : State) (context : Context) (index : Nat) (symbol : Symbol) :
    Prop where
  /-- The context of the symbol. -/
  context_eq : symbol.context = context
  /-- Its place there. -/
  index_eq : symbol.index = index
  /-- A function has a signature. -/
  signature : symbol.kind = .function → ∃ signature, symbol.type = some (.ofSignature signature)
  /-- What is no function has a plain type. -/
  plain : symbol.kind ≠ .function → ∃ type, symbol.type = some (.basic type)
  /-- What is no function can be assigned to. -/
  assignable : symbol.kind ≠ .function → symbol.isAssignable = true
  /-- What is no function has a slot. -/
  slot_isSome : symbol.kind ≠ .function → (state.slot? symbol).isSome

/-- The scopes in the course of lowering. -/
structure State.WellScoped (state : State) : Prop where
  /-- Every parent stands before its children. -/
  ordered : state.table.Ordered
  /-- Symbols are placed. -/
  placed : ∀ context record, state.table.record? context = some record →
    ∀ (index : Nat) (symbol : Symbol), record.symbols[index]? = some symbol →
      state.Placed context index symbol

section Meanings

variable {state after : State} {context other : Nat} {name : Bytes}

theorem State.meaning?_congr (tables : after.table = state.table)
    (slots : after.slots = state.slots) :
    after.meaning? = state.meaning? := by
  have meanings : after.meaning = state.meaning := by
    funext symbol
    simp only [State.meaning, State.slot?, slots]
  funext context name
  simp only [State.meaning?, tables, meanings]

theorem State.WellScoped.congr (wellScoped : state.WellScoped) (tables : after.table = state.table)
    (slots : after.slots = state.slots) : after.WellScoped where
  ordered := tables ▸ wellScoped.ordered
  placed := by
    intro context record found index symbol there
    obtain ⟨context_eq, index_eq, signature, plain, assignable, slot_isSome⟩ :=
      wellScoped.placed context record (tables ▸ found) index symbol there
    exact ⟨context_eq, index_eq, signature, plain, assignable, by
      simpa only [State.slot?, slots] using slot_isSome⟩

/-- The record with a name marked as used. -/
def markSymbol (name : Bytes) (symbol : Symbol) : Symbol :=
  if symbol.name == name then { symbol with used := true } else symbol

theorem meaning_markSymbol (symbol : Symbol) :
    state.meaning (markSymbol name symbol) = state.meaning symbol := by
  unfold markSymbol
  split <;> rfl

/-- Using a name changes what no name stands for. -/
theorem State.WellScoped.use (wellScoped : state.WellScoped) (symbol : Symbol) :
    (state.use symbol name).WellScoped where
  ordered := wellScoped.ordered.update fun _ => rfl
  placed := by
    intro place record found index marked there
    rw [State.use, State.withTable, ScopeTable.markUsed, ScopeTable.record?_update] at found
    obtain ⟨old, oldFound, rfl⟩ := Option.map_eq_some_iff.mp found
    by_cases same : place = symbol.context
    · simp only [same, if_true, List.getElem?_map, Option.map_eq_some_iff] at there
      obtain ⟨original, originalThere, rfl⟩ := there
      obtain ⟨context_eq, index_eq, signature, plain, assignable, slot_isSome⟩ :=
        wellScoped.placed place old oldFound index original originalThere
      split <;> exact ⟨context_eq, index_eq, signature, plain, assignable, slot_isSome⟩
    · simp only [same, if_false] at there
      obtain ⟨context_eq, index_eq, signature, plain, assignable, slot_isSome⟩ :=
        wellScoped.placed place old oldFound index marked there
      exact ⟨context_eq, index_eq, signature, plain, assignable, slot_isSome⟩

theorem State.WellScoped.meaning?_use (wellScoped : state.WellScoped) (symbol : Symbol)
    (used : Bytes) :
    (state.use symbol used).meaning? = state.meaning? := by
  funext place name
  refine ScopeTable.map_find?_congr wellScoped.ordered (wellScoped.use symbol).ordered
    (fun context _ => ScopeTable.parent?_update fun _ => rfl) fun context _ => ?_
  by_cases same : context = symbol.context
  · subst same
    simp only [State.use, State.withTable, ScopeTable.markUsed, ScopeTable.local?,
      ScopeTable.record?_update, if_true]
    cases state.table.record? symbol.context with
    | none => rfl
    | some record =>
        simp only [Option.map_some, Option.bind_eq_bind, Option.bind_some, ScopeRecord.find?,
          List.find?_map, Option.map_map]
        have names : ((fun found : Symbol => found.name == name) ∘ fun found : Symbol =>
            if found.name == used then { found with used := true } else found) =
            fun found => found.name == name := by
          funext found
          simp only [Function.comp_apply]
          split <;> rfl
        rw [names]
        congr 1
        funext found
        exact meaning_markSymbol found
  · rw [State.use, State.withTable, ScopeTable.markUsed, ScopeTable.local?_update_of_ne same]
    rfl

section Resolving

variable {found : Symbol}

/-- What a name resolves to is placed and bears the name. -/
theorem State.WellScoped.placed_of_find? (wellScoped : state.WellScoped)
    (finds : state.table.find? context name = some found) :
    found.name = name ∧ ∃ place index, state.Placed place index found := by
  induction context using Nat.strongRecOn with
  | ind context ih =>
      rw [ScopeTable.find?_eq wellScoped.ordered, Option.or_eq_some_iff] at finds
      rcases finds with here | ⟨-, outer⟩
      · obtain ⟨record, isRecord, within⟩ := Option.bind_eq_some_iff.mp here
        obtain ⟨index, position⟩ := List.mem_iff_getElem?.mp (List.mem_of_find?_eq_some within)
        exact ⟨by simpa using List.find?_some within, context, index,
          wellScoped.placed context record isRecord index found position⟩
      · obtain ⟨parent, above, outer⟩ := Option.bind_eq_some_iff.mp outer
        obtain ⟨record, isRecord, isParent⟩ := Option.bind_eq_some_iff.mp above
        exact ih parent (wellScoped.ordered context record parent isRecord isParent) outer

/-- A name that resolves to no function stands for the slot of its symbol. -/
theorem State.WellScoped.variable_of_find? (wellScoped : state.WellScoped)
    (finds : state.table.find? context name = some found) (kind : found.kind ≠ .function) :
    ∃ place, state.slot? found = some place ∧
      state.meaning? context name = some (.variable place) := by
  obtain ⟨-, _, _, placed⟩ := wellScoped.placed_of_find? finds
  obtain ⟨place, there⟩ := Option.isSome_iff_exists.mp (placed.slot_isSome kind)
  exact ⟨place, there, by simp [State.meaning?, finds, State.meaning, kind, there]⟩

theorem signature?_ofSignature (signature : Signature) :
    Ty.signature? (.ofSignature signature) = some signature := by
  have params : (signature.params.map Ty.basic).mapM Ty.basic? = some signature.params := by
    induction signature.params with
    | nil => rfl
    | cons type types ih => simp [List.mapM_cons, ih, Ty.basic?]
  simp [Ty.ofSignature, Ty.signature?, params]

/-- A name that resolves to something with a signature stands for a function. -/
theorem State.WellScoped.function_of_find? (wellScoped : state.WellScoped)
    (finds : state.table.find? context name = some found) {signature : Signature}
    (typed : (found.type >>= Ty.signature?) = some signature) :
    found.name = name ∧ state.meaning? context name = some (.function signature) := by
  obtain ⟨names, _, _, placed⟩ := wellScoped.placed_of_find? finds
  have kind : found.kind = .function := by
    refine Decidable.byContradiction fun kind => ?_
    obtain ⟨type, plain⟩ := placed.plain kind
    simp [plain, Ty.signature?] at typed
  exact ⟨names, by simp [State.meaning?, finds, State.meaning, kind, typed]⟩

end Resolving

section Opening

variable {kind : ScopeKind} {label : Bytes}

theorem State.WellScoped.openScope (wellScoped : state.WellScoped)
    (inside : context < state.nextContext) : (state.openScope context kind label).WellScoped where
  ordered := wellScoped.ordered.child inside
  placed := by
    intro place record found index symbol there
    rcases Nat.lt_trichotomy place state.table.records.length with old | new | beyond
    · rw [State.openScope, State.withTable, ScopeTable.record?_child old] at found
      obtain ⟨context_eq, index_eq, signature, plain, assignable, slot_isSome⟩ :=
        wellScoped.placed place record found index symbol there
      exact ⟨context_eq, index_eq, signature, plain, assignable, slot_isSome⟩
    · subst new
      obtain ⟨depth, self⟩ := state.table.record?_child_self context kind label
      rw [State.openScope, State.withTable, self] at found
      cases found
      cases there
    · have missing : (state.openScope context kind label).table.record? place = none := by
        simp only [State.openScope, State.withTable, ScopeTable.child, ScopeTable.record?,
          List.getElem?_eq_none_iff, List.length_append, List.length_singleton]
        omega
      rw [missing] at found
      cases found

/-- A new scope changes nothing in the scopes that were there. -/
theorem State.WellScoped.meaning?_openScope (wellScoped : state.WellScoped)
    (inside : context < state.nextContext) (old : other < state.nextContext) :
    (state.openScope context kind label).meaning? other = state.meaning? other := by
  funext name
  refine ScopeTable.map_find?_congr wellScoped.ordered (wellScoped.openScope inside).ordered
    (fun place le => ?_) fun place le => ?_
  · simp only [ScopeTable.parent?, State.openScope, State.withTable,
      ScopeTable.record?_child (Nat.lt_of_le_of_lt le old)]
  · simp only [ScopeTable.local?, State.openScope, State.withTable,
      ScopeTable.record?_child (Nat.lt_of_le_of_lt le old)]
    rfl

/-- In a new scope names stand for what they stand for around it. -/
theorem State.WellScoped.meaning?_nextContext (wellScoped : state.WellScoped)
    (inside : context < state.nextContext) :
    (state.openScope context kind label).meaning? state.nextContext = state.meaning? context := by
  rw [← wellScoped.meaning?_openScope inside inside]
  funext name
  obtain ⟨depth, self⟩ := state.table.record?_child_self context kind label
  have outer : (state.openScope context kind label).table.find? state.nextContext name =
      (state.openScope context kind label).table.find? context name := by
    rw [ScopeTable.find?_eq (wellScoped.openScope inside).ordered]
    simp only [State.openScope, State.withTable, State.nextContext, ScopeTable.local?,
      ScopeTable.parent?, self, Option.bind_eq_bind, Option.bind_some, ScopeRecord.find?,
      List.find?_nil, Option.none_or]
  rw [State.meaning?, outer, State.meaning?]

end Opening

section Declaring

variable {symbol owned : Symbol} {table : ScopeTable} {slot : Place}

/-- The place of a new symbol is taken by no other one. -/
theorem State.WellScoped.key_ne (wellScoped : state.WellScoped)
    (declares : state.table.declare context symbol = .ok (owned, table)) {record : ScopeRecord}
    (found : state.table.record? other = some record) {index : Nat} {earlier : Symbol}
    (there : record.symbols[index]? = some earlier) :
    (earlier.context, earlier.index) ≠ (owned.context, owned.index) := by
  obtain ⟨-, rfl, -⟩ := ScopeTable.declare_ok declares
  have place := wellScoped.placed other record found index earlier there
  intro same
  obtain ⟨contexts, indexes⟩ := Prod.mk.inj same
  rw [place.context_eq] at contexts
  rw [place.index_eq] at indexes
  have below := (List.getElem?_eq_some_iff.mp there).1
  subst contexts
  simp only [found, Option.map_some, Option.getD_some] at indexes
  omega

theorem slot?_bound (key : (symbol.context, symbol.index) ≠ (owned.context, owned.index))
    (slots : after.slots = ((owned.context, owned.index), slot) :: state.slots) :
    after.slot? symbol = state.slot? symbol := by
  have differ : ¬ ((owned.context, owned.index) == (symbol.context, symbol.index)) = true :=
    fun same => key (beq_iff_eq.mp same).symm
  unfold State.slot?
  rw [slots, List.find?_cons_of_neg (by exact differ)]

theorem slot?_bound_self
    (slots : after.slots = ((owned.context, owned.index), slot) :: state.slots) :
    after.slot? owned = some slot := by
  simp [State.slot?, slots]

/-- The declaration of a symbol. -/
structure Declares (state after : State) (context : Nat) (symbol owned : Symbol) : Prop where
  /-- The context is there. -/
  inside : context < state.nextContext
  /-- The symbol is declared in the table. -/
  declares : state.table.declare context symbol = .ok (owned, after.table)
  /-- The slots of other symbols stay. -/
  others : ∀ other : Symbol, (other.context, other.index) ≠ (owned.context, owned.index) →
    after.slot? other = state.slot? other
  /-- The symbol is placed. -/
  placed : after.Placed context owned.index owned

namespace Declares

/-- The declaration of a variable or parameter with a slot. -/
theorem of_slot (inside : context < state.nextContext) (assignable : symbol.isAssignable = true)
    (plain : ∃ type, symbol.type = some (.basic type))
    (declares : state.table.declare context symbol = .ok (owned, after.table))
    (slots : after.slots = ((owned.context, owned.index), slot) :: state.slots) :
    Declares state after context symbol owned ∧ after.meaning owned = .variable slot := by
  obtain ⟨-, isOwned, -⟩ := ScopeTable.declare_ok declares
  have kind : owned.kind ≠ .function := by
    rw [isOwned]
    intro isFunction
    have isFunction : symbol.kind = .function := isFunction
    simp [Symbol.isAssignable, isFunction, SymbolKind.isAssignable] at assignable
  have there := slot?_bound_self slots
  refine ⟨⟨inside, declares, fun other key => slot?_bound key slots, ?_⟩, ?_⟩
  · refine ⟨by rw [isOwned], rfl, fun isFunction => absurd isFunction kind, fun _ => ?_,
      fun _ => ?_,
      fun _ => by simp [there]⟩
    · rw [isOwned]
      exact plain
    · rw [isOwned]
      exact assignable
  · rw [State.meaning, if_neg kind, there, Option.getD_some]

/-- The declaration of a function. -/
theorem of_signature (inside : context < state.nextContext) {signature : Signature}
    (kind : symbol.kind = .function) (typed : symbol.type = some (.ofSignature signature))
    (declares : state.table.declare context symbol = .ok (owned, after.table))
    (slots : after.slots = state.slots) :
    Declares state after context symbol owned ∧ after.meaning owned = .function signature := by
  obtain ⟨-, isOwned, -⟩ := ScopeTable.declare_ok declares
  have ownedKind : owned.kind = .function := by rw [isOwned, kind]
  have ownedType : owned.type = some (.ofSignature signature) := by rw [isOwned, typed]
  refine ⟨⟨inside, declares, fun other _ => by rw [State.slot?, State.slot?, slots], ?_⟩, ?_⟩
  · exact ⟨by rw [isOwned], rfl, fun _ => ⟨signature, ownedType⟩,
      fun other => absurd ownedKind other,
      fun other => absurd ownedKind other, fun other => absurd ownedKind other⟩
  · simp [State.meaning, ownedKind, ownedType, signature?_ofSignature]

variable (declared : Declares state after context symbol owned)
include declared

theorem meaning_eq {other : Symbol}
    (key : (other.context, other.index) ≠ (owned.context, owned.index)) :
    after.meaning other = state.meaning other := by
  simp only [State.meaning, declared.others other key]

theorem wellScoped (before : state.WellScoped) : after.WellScoped where
  ordered := by
    rw [(ScopeTable.declare_ok declared.declares).2.2]
    exact before.ordered.update fun _ => rfl
  placed := by
    intro place record found index found' there
    obtain ⟨-, isOwned, tables⟩ := ScopeTable.declare_ok declared.declares
    rw [tables, ScopeTable.record?_update] at found
    obtain ⟨old, oldFound, rfl⟩ := Option.map_eq_some_iff.mp found
    have earlier : ∀ {symbol : Symbol}, old.symbols[index]? = some symbol →
        after.Placed place index symbol := by
      intro symbol there
      obtain ⟨context_eq, index_eq, signature, plain, assignable, slot_isSome⟩ :=
        before.placed place old oldFound index symbol there
      refine ⟨context_eq, index_eq, signature, plain, assignable, fun kind => ?_⟩
      rw [declared.others symbol (before.key_ne declared.declares oldFound there)]
      exact slot_isSome kind
    by_cases same : place = context
    · subst same
      simp only [if_true] at there
      rcases Nat.lt_trichotomy index old.symbols.length with below | last | beyond
      · rw [List.getElem?_append_left below] at there
        exact earlier there
      · subst last
        obtain rfl : owned = found' := by simpa using there
        have ownedIndex : owned.index = old.symbols.length := by
          rw [isOwned]
          simp [oldFound]
        exact ownedIndex ▸ declared.placed
      · rw [List.getElem?_eq_none (by simp; omega)] at there
        cases there
    · simp only [same, if_false] at there
      exact earlier there

/-- A declaration makes no scope. -/
theorem nextContext_eq : after.nextContext = state.nextContext := by
  rw [State.nextContext, (ScopeTable.declare_ok declared.declares).2.2]
  exact ScopeTable.records_length_update

/-- A declaration is not seen in the contexts before its own. -/
theorem meaning?_of_lt (before : state.WellScoped) (outer : other < context) :
    after.meaning? other = state.meaning? other := by
  funext name
  obtain ⟨-, -, tables⟩ := ScopeTable.declare_ok declared.declares
  refine ScopeTable.map_find?_congr before.ordered (declared.wellScoped before).ordered
    (fun place le => ?_) fun place le => ?_
  · rw [tables]
    exact ScopeTable.parent?_update fun _ => rfl
  · rw [tables, ScopeTable.local?_update_of_ne (by omega)]
    cases there : state.table.local? place name with
    | none => rfl
    | some earlier =>
        obtain ⟨record, found, finds⟩ := Option.bind_eq_some_iff.mp there
        obtain ⟨index, position⟩ := List.mem_iff_getElem?.mp (List.mem_of_find?_eq_some finds)
        simp only [Option.map_some]
        rw [declared.meaning_eq (before.key_ne declared.declares found position)]

/-- In its own context a declaration hides what the name stood for. -/
theorem meaning?_self (before : state.WellScoped) (name : Bytes) :
    after.meaning? context name =
      if name = symbol.name then some (after.meaning owned) else state.meaning? context name := by
  have local_eq := ScopeTable.local?_declare declared.declares declared.inside name
  unfold State.meaning?
  rw [ScopeTable.find?_eq (declared.wellScoped before).ordered, local_eq]
  by_cases same : name = symbol.name
  · simp only [if_pos same, Option.some_or, Option.map_some]
  · simp only [if_neg same]
    rw [ScopeTable.find?_eq before.ordered, Option.map_or, Option.map_or]
    have parents : after.table.parent? context = state.table.parent? context := by
      rw [(ScopeTable.declare_ok declared.declares).2.2]
      exact ScopeTable.parent?_update fun _ => rfl
    congr 1
    · cases there : state.table.local? context name with
      | none => rfl
      | some earlier =>
          obtain ⟨record, found, finds⟩ := Option.bind_eq_some_iff.mp there
          obtain ⟨index, position⟩ := List.mem_iff_getElem?.mp (List.mem_of_find?_eq_some finds)
          simp only [Option.map_some]
          rw [declared.meaning_eq (before.key_ne declared.declares found position)]
    · rw [parents]
      cases above : state.table.parent? context with
      | none => rfl
      | some parent =>
          obtain ⟨record, found, isParent⟩ := Option.bind_eq_some_iff.mp above
          have below := before.ordered context record parent found isParent
          exact congrFun (declared.meaning?_of_lt before below) name

end Declares

end Declaring

end Meanings

end Lowering

end ScriptCompiler
