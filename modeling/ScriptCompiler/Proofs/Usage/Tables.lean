import Mathlib.Data.List.Nodup
import ScriptCompiler.Proofs.Lowering.Scopes
import ScriptCompiler.Proofs.Usage.Mentions

/-!
# What scope tables know of a program

A part of a program changes a scope table in three ways.  It adds declarations to its own context,
it opens scopes behind those that are there, and the declarations that its names refer to become
used (`ScopeTable.Survey`).  Parts that follow each other change it one after the other, and what
happens in a scope of their own is, seen from outside, one more scope.
-/

namespace ScriptCompiler

/-- The binding of a symbol. -/
def Symbol.binding (symbol : Symbol) : Binding := ⟨symbol.kind, symbol.name, symbol.position⟩

/-- What a scope declares. -/
def ScopeRecord.bindings (record : ScopeRecord) : List Binding := record.symbols.map Symbol.binding

/-- The symbols of a scope know their place. -/
structure ScopeRecord.Tidy (record : ScopeRecord) (context : Nat) : Prop where
  /-- A scope declares a name once. -/
  distinct : (record.symbols.map Symbol.name).Nodup
  /-- A symbol knows its context. -/
  located : ∀ symbol ∈ record.symbols, symbol.context = context
  /-- Only functions have signatures. -/
  plain : ∀ symbol ∈ record.symbols, symbol.kind ≠ .function →
    (symbol.type >>= Ty.signature?) = none

open Lowering (markSymbol)

section Marks

theorem binding_markSymbol (name : Bytes) (symbol : Symbol) :
    (markSymbol name symbol).binding = symbol.binding := by
  unfold markSymbol
  split <;> rfl

/-- The scope in which the symbol of a name is used. -/
def ScopeRecord.marked (name : Bytes) (record : ScopeRecord) : ScopeRecord :=
  { record with symbols := record.symbols.map (markSymbol name) }

theorem ScopeRecord.bindings_marked (name : Bytes) (record : ScopeRecord) :
    (record.marked name).bindings = record.bindings := by
  rw [bindings, marked, List.map_map]
  exact List.map_congr_left fun symbol _ => binding_markSymbol name symbol

theorem ScopeRecord.Tidy.marked {record : ScopeRecord} {context : Nat} (tidy : record.Tidy context)
    (name : Bytes) : (record.marked name).Tidy context := by
  have same : ∀ symbol : Symbol, (markSymbol name symbol).name = symbol.name ∧
      (markSymbol name symbol).context = symbol.context ∧ (markSymbol name symbol).kind =
        symbol.kind ∧
      (markSymbol name symbol).type = symbol.type := by
    intro symbol
    unfold markSymbol
    split <;> exact ⟨rfl, rfl, rfl, rfl⟩
  refine ⟨?_, ?_, ?_⟩
  · rw [ScopeRecord.marked, List.map_map]
    exact (List.map_congr_left fun symbol _ => (same symbol).1) ▸ tidy.distinct
  · refine List.forall_mem_map.mpr fun symbol member => ?_
    rw [(same symbol).2.1]
    exact tidy.located symbol member
  · refine List.forall_mem_map.mpr fun symbol member => ?_
    rw [(same symbol).2.2.1, (same symbol).2.2.2]
    exact tidy.plain symbol member

end Marks

namespace ScopeTable

/-- What the scopes of a table declare, in the order of their creation. -/
def bindings (table : ScopeTable) : List (List Binding) := table.records.map ScopeRecord.bindings

/-- A name has been resolved to a declaration. -/
def Uses (table : ScopeTable) (binding : Binding) : Prop :=
  ∃ context record, table.record? context = some record ∧
    ∃ symbol ∈ record.symbols, symbol.used = true ∧ symbol.binding = binding

/-- Parents stand before their children, and symbols are found where they say. -/
structure Tidy (table : ScopeTable) : Prop where
  /-- Parents stand before their children. -/
  ordered : table.Ordered
  /-- The scopes are tidy. -/
  records : ∀ context record, table.record? context = some record → record.Tidy context

/-- The declarations in sight of a context. -/
inductive Shows (table : ScopeTable) : Nat → Sight → Prop where
  | outermost {context : Nat} {record : ScopeRecord} : table.record? context = some record →
      record.parent = none → Shows table context [record.bindings]
  | inside {context parent : Nat} {record : ScopeRecord} {sight : Sight} :
      table.record? context = some record → record.parent = some parent → Shows table parent sight →
      Shows table context (record.bindings :: sight)

/-- What a part of a program has done to a table: what it adds to its context, the scopes that it
opens, each with its declarations, and the names in it, whose declarations have become used. -/
structure Survey (table after : ScopeTable) (context : Nat) (adds : List Binding)
    (opened : List (List Binding)) (mentions : List Mention) : Prop where
  /-- The table stays tidy. -/
  tidy : after.Tidy
  /-- Scopes keep their parents. -/
  parents : ∀ place < table.records.length, after.parent? place = table.parent? place
  /-- What the scopes declare. -/
  bindings : after.bindings = table.bindings.modify context (· ++ adds) ++ opened
  /-- Which declarations are used. -/
  uses : ∀ binding : Binding, binding.kind ≠ .function →
    (after.Uses binding ↔ table.Uses binding ∨ ∃ mention ∈ mentions, mention.target = some binding)

variable {table middle after : ScopeTable} {context place : Nat} {name : Bytes}
    {sight outer : Sight}
  {own adds later : List Binding} {opened inner : List (List Binding)}
    {mentions others : List Mention}
  {symbol owned found : Symbol} {kind : ScopeKind} {label : Bytes}
    {change : ScopeRecord → ScopeRecord}

/-! ### Sight -/

theorem length_bindings (table : ScopeTable) : table.bindings.length = table.records.length :=
  List.length_map _

theorem bindings_getElem? (table : ScopeTable) (place : Nat) :
    table.bindings[place]? = (table.record? place).map ScopeRecord.bindings := List.getElem?_map ..

theorem Shows.lt (shows : table.Shows context sight) : context < table.records.length := by
  cases shows with
  | outermost found _ | inside found _ _ => exact (List.getElem?_eq_some_iff.mp found).1

theorem map_local? (table : ScopeTable) (context : Nat) (name : Bytes) :
    (table.local? context name).map Symbol.binding =
      ((table.record? context).map ScopeRecord.bindings).bind fun scope =>
        scope.find? fun binding => binding.name == name := by
  rw [local?]
  cases table.record? context with
  | none => rfl
  | some record =>
      simp only [Option.bind_eq_bind, Option.bind_some, Option.map_some, ScopeRecord.find?,
        ScopeRecord.bindings, List.find?_map]
      rfl

/-- A name resolves to what it refers to. -/
theorem Shows.find? (shows : table.Shows context sight) (ordered : table.Ordered) (name : Bytes) :
    (table.find? context name).map Symbol.binding = sight.find? name := by
  induction shows with
  | outermost there top =>
      rw [find?_eq ordered, Option.map_or, map_local?, parent?, there, Sight.find?,
        List.findSome?_cons,
        List.findSome?_nil]
      simp only [Option.map_some, Option.bind_some, Option.bind_eq_bind, top, Option.bind_none,
        Option.map_none, Option.or_none]
      cases List.find? _ _ <;> rfl
  | inside there above _ ih =>
      rw [find?_eq ordered, Option.map_or, map_local?, parent?, there, Sight.find?,
        List.findSome?_cons]
      simp only [Option.map_some, Option.bind_some, Option.bind_eq_bind, above, ih, Sight.find?]
      cases List.find? _ _ <;> rfl

/-- What a name resolves to is a symbol of the name. -/
theorem mem_of_find? (ordered : table.Ordered) (finds : table.find? context name = some found) :
    ∃ place record, table.record? place = some record ∧ found ∈ record.symbols ∧
    found.name = name := by
  induction context using Nat.strongRecOn with
  | ind context ih =>
      rw [find?_eq ordered, Option.or_eq_some_iff] at finds
      rcases finds with here | ⟨-, beyond⟩
      · obtain ⟨record, there, within⟩ := Option.bind_eq_some_iff.mp here
        exact ⟨context, record, there, List.mem_of_find?_eq_some within,
          by simpa using List.find?_some within⟩
      · obtain ⟨parent, above, beyond⟩ := Option.bind_eq_some_iff.mp beyond
        obtain ⟨record, there, isParent⟩ := Option.bind_eq_some_iff.mp above
        exact ih parent (ordered context record parent there isParent) beyond

theorem Shows.child_outer (shows : table.Shows place sight) (context : Nat) (kind : ScopeKind)
    (label : Bytes) : (table.child context kind label).2.Shows place sight := by
  induction shows with
  | outermost there top =>
      have below := (List.getElem?_eq_some_iff.mp there).1
      exact .outermost ((record?_child below).trans there) top
  | inside there above _ ih =>
      have below := (List.getElem?_eq_some_iff.mp there).1
      exact .inside ((record?_child below).trans there) above ih

/-- A new scope sees what is in sight around it. -/
theorem Shows.child (shows : table.Shows context sight) (kind : ScopeKind) (label : Bytes) :
    (table.child context kind label).2.Shows table.records.length ([] :: sight) := by
  obtain ⟨depth, opened⟩ := table.record?_child_self context kind label
  exact .inside opened rfl (shows.child_outer context kind label)

theorem record?_child_of_le {record : ScopeRecord} (beyond : table.records.length ≤ place)
    (there : (table.child context kind label).2.record? place = some record) :
    record.parent = some context ∧ record.symbols = [] := by
  have below := (List.getElem?_eq_some_iff.mp there).1
  rw [ScopeTable.child, List.length_append, List.length_singleton] at below
  obtain rfl : table.records.length = place := Nat.le_antisymm beyond (Nat.le_of_lt_succ below)
  obtain ⟨depth, made⟩ := table.record?_child_self context kind label
  cases made.symm.trans there
  exact ⟨rfl, rfl⟩

theorem Tidy.child (tidy : table.Tidy) (inside : context < table.records.length) :
    (table.child context kind label).2.Tidy where
  ordered := tidy.ordered.child inside
  records := by
    intro place record there
    rcases Nat.lt_or_ge place table.records.length with below | beyond
    · exact tidy.records place record ((record?_child below).symm.trans there)
    · obtain ⟨-, fresh⟩ := record?_child_of_le beyond there
      refine ⟨?_, ?_, ?_⟩ <;> rw [fresh]
      · exact List.nodup_nil
      · exact List.forall_mem_nil _
      · exact List.forall_mem_nil _

theorem Tidy.update (tidy : table.Tidy) {change : ScopeRecord → ScopeRecord}
    (parents : ∀ record, (change record).parent = record.parent)
    (changed : ∀ record, table.record? context = some record → (change record).Tidy context) :
    (table.update context change).Tidy where
  ordered := tidy.ordered.update parents
  records := by
    intro place record there
    rw [record?_update] at there
    obtain ⟨old, found, rfl⟩ := Option.map_eq_some_iff.mp there
    split
    · rename_i here
      subst here
      exact changed old found
    · exact tidy.records place old found

namespace Survey

theorem length (survey : table.Survey after context adds opened mentions) :
    after.records.length = table.records.length + opened.length := by
  have lengths := congrArg List.length survey.bindings
  rwa [length_bindings, List.length_append, List.length_modify, length_bindings] at lengths

theorem le (survey : table.Survey after context adds opened mentions) :
    table.records.length ≤ after.records.length := survey.length ▸ Nat.le_add_right _ _

/-- A scope of the table, with what has been added to it. -/
theorem record? (survey : table.Survey after context adds opened mentions) {record : ScopeRecord}
    (there : table.record? place = some record) :
    ∃ record', after.record? place = some record' ∧ record'.parent = record.parent ∧
      record'.bindings = if place = context then record.bindings ++ adds else record.bindings := by
  have below := (List.getElem?_eq_some_iff.mp there).1
  obtain ⟨record', there'⟩ : ∃ record', after.record? place = some record' :=
    ⟨_, List.getElem?_eq_getElem (Nat.lt_of_lt_of_le below survey.le)⟩
  have parents := survey.parents place below
  rw [parent?, parent?, there, there'] at parents
  have bindings := congrArg (fun scopes : List (List Binding) => scopes[place]?) survey.bindings
  rw [List.getElem?_append_left (by rwa [List.length_modify, length_bindings]),
    List.getElem?_modify,
    bindings_getElem?, bindings_getElem?, there, there'] at bindings
  refine ⟨record', there', parents, ?_⟩
  by_cases here : place = context
  · subst here
    simpa using bindings
  · rw [if_neg here]
    simpa [Ne.symm here] using bindings

/-- Outside of the context nothing is seen of the additions. -/
theorem shows_outer (survey : table.Survey after context adds opened mentions)
    (ordered : table.Ordered)
    (shows : table.Shows place sight) (below : place < context) : after.Shows place sight := by
  induction shows with
  | outermost there top =>
      obtain ⟨record', there', parent, bindings⟩ := survey.record? there
      rw [if_neg (Nat.ne_of_lt below)] at bindings
      exact bindings ▸ .outermost there' (parent.trans top)
  | inside there above _ ih =>
      obtain ⟨record', there', parent, bindings⟩ := survey.record? there
      rw [if_neg (Nat.ne_of_lt below)] at bindings
      exact bindings ▸ .inside there' (parent.trans above)
        (ih (Nat.lt_trans (ordered _ _ _ there above) below))

/-- Afterwards the additions are in sight. -/
theorem shows (survey : table.Survey after context adds opened mentions) (ordered : table.Ordered)
    (shows : table.Shows context (own :: outer)) :
    after.Shows context ((own ++ adds) :: outer) := by
  cases shows with
  | outermost there top =>
      obtain ⟨record', there', parent, bindings⟩ := survey.record? there
      rw [if_pos rfl] at bindings
      exact bindings ▸ .outermost there' (parent.trans top)
  | inside there above around =>
      obtain ⟨record', there', parent, bindings⟩ := survey.record? there
      rw [if_pos rfl] at bindings
      exact bindings ▸ .inside there' (parent.trans above)
        (survey.shows_outer ordered around (ordered _ _ _ there above))

/-! ### Steps -/

theorem modify_append_left {α : Type} {change : α → α} {items : List α} {index : Nat}
    (below : index < items.length) (others : List α) :
    (items ++ others).modify index change = items.modify index change ++ others := by
  induction items generalizing index with
  | nil => cases below
  | cons item items ih =>
      cases index with
      | zero => rfl
      | succ index => exact congrArg (item :: ·) (ih (Nat.lt_of_succ_lt_succ below))

theorem modify_append_nil {α : Type} (items : List (List α)) (index : Nat) :
    items.modify index (· ++ []) = items := by
  simp only [List.append_nil]
  exact List.modify_id index items

theorem nothing (tidy : table.Tidy) : table.Survey table context [] [] [] where
  tidy := tidy
  parents := fun _ _ => rfl
  bindings := by rw [modify_append_nil, List.append_nil]
  uses := by simp

/-- Parts of a program that follow each other. -/
theorem trans (inside : context < table.records.length)
    (first : table.Survey middle context adds opened mentions)
    (second : middle.Survey after context later inner others) :
    table.Survey after context (adds ++ later) (opened ++ inner) (mentions ++ others) where
  tidy := second.tidy
  parents := fun place below =>
    (second.parents place (Nat.lt_of_lt_of_le below first.le)).trans (first.parents place below)
  bindings := by
    have within : context < (table.bindings.modify context (· ++ adds)).length := by
      rwa [List.length_modify, length_bindings]
    have both : (· ++ later) ∘ (· ++ adds) = fun scope : List Binding => scope ++ (adds ++ later) :=
      funext fun scope => List.append_assoc scope adds later
    rw [second.bindings, first.bindings, modify_append_left within, List.modify_modify_eq, both,
      List.append_assoc]
  uses := by
    intro binding kind
    rw [second.uses binding kind, first.uses binding kind, or_assoc]
    simp [or_and_right, exists_or]

/-- What happens in a new scope. -/
theorem scope
    (survey : (table.child context kind label).2.Survey after table.records.length adds opened
    mentions) : table.Survey after context [] (adds :: opened) mentions where
  tidy := survey.tidy
  parents := by
    intro place below
    have within : place < (table.child context kind label).2.records.length := by
      simpa [ScopeTable.child] using Nat.lt_succ_of_lt below
    rw [survey.parents place within, parent?, parent?, record?_child below]
  bindings := by
    have made : (table.child context kind label).2.bindings = table.bindings ++ [[]] := by
      simp [ScopeTable.bindings, ScopeTable.child, ScopeRecord.bindings]
    have last : (table.bindings ++ [[]]).modify table.bindings.length (· ++ adds) =
        table.bindings ++ [adds] := by
      rw [List.modify_eq_set_getElem?]
      simp
    rw [survey.bindings, made, ← length_bindings, modify_append_nil, last, List.append_assoc]
    rfl
  uses := by
    intro binding kind
    rw [survey.uses binding kind]
    refine or_congr_left ⟨?_, ?_⟩
    · rintro ⟨place, record, there, symbol, member, used⟩
      rcases Nat.lt_or_ge place table.records.length with below | beyond
      · exact ⟨place, record, (record?_child below).symm.trans there, symbol, member, used⟩
      · obtain ⟨-, fresh⟩ := record?_child_of_le beyond there
        rw [fresh] at member
        cases member
    · rintro ⟨place, record, there, symbol, member, used⟩
      have below := (List.getElem?_eq_some_iff.mp there).1
      exact ⟨place, record, (record?_child below).trans there, symbol, member, used⟩

/-- A change of the symbols of a context that declares the same but for some additions. -/
theorem update (tidy : (table.update context change).Tidy)
    (parents : ∀ record, (change record).parent = record.parent)
    (declares : ∀ record, table.record? context = some record →
      (change record).bindings = record.bindings ++ adds)
    (uses : ∀ binding : Binding, binding.kind ≠ .function →
      ((table.update context change).Uses binding ↔
        table.Uses binding ∨ ∃ mention ∈ mentions, mention.target = some binding)) :
    table.Survey (table.update context change) context adds [] mentions where
  tidy := tidy
  parents := fun place _ => parent?_update parents
  bindings := by
    rw [List.append_nil]
    refine List.ext_getElem? fun place => ?_
    rw [bindings_getElem?, record?_update, List.getElem?_modify, bindings_getElem?]
    cases there : table.record? place with
    | none => rfl
    | some record =>
        by_cases here : place = context
        · subst here
          simp [declares record there]
        · simp [here, Ne.symm here]
  uses := uses

/-- Where nothing is added, one context is as good as another. -/
theorem elsewhere (survey : table.Survey after context [] opened mentions) (place : Nat) :
    table.Survey after place [] opened mentions where
  tidy := survey.tidy
  parents := survey.parents
  bindings := by rw [survey.bindings, modify_append_nil, modify_append_nil]
  uses := survey.uses

/-- A declaration is an addition, and not used yet. -/
theorem declare (tidy : table.Tidy) (run : table.declare context symbol = .ok (owned, after))
    (fresh : symbol.used = false)
    (plain : symbol.kind ≠ .function → (symbol.type >>= Ty.signature?) = none) :
    table.Survey after context [symbol.binding] [] [] := by
  obtain ⟨absent, isOwned, rfl⟩ := declare_ok run
  have same : owned.binding = symbol.binding := by rw [isOwned]; rfl
  have new : ∀ record, table.record? context = some record →
      symbol.name ∉ record.symbols.map Symbol.name := by
    intro record there member
    obtain ⟨other, within, isName⟩ := List.mem_map.mp member
    simp only [local?, there, Option.bind_eq_bind, Option.bind_some, ScopeRecord.find?,
      List.find?_eq_none] at absent
    exact absent other within (beq_iff_eq.mpr isName)
  refine update (tidy.update (fun _ => rfl) fun record there => ?_) (fun _ => rfl)
    (fun record _ => ?_) ?_
  · have old := tidy.records context record there
    refine ⟨?_, ?_, ?_⟩
    · rw [List.map_append]
      refine List.concat_eq_append ▸ old.distinct.concat ?_
      rw [isOwned]
      exact new record there
    · refine List.forall_mem_append.mpr ⟨old.located, fun other member => ?_⟩
      rw [List.mem_singleton.mp member, isOwned]
    · refine List.forall_mem_append.mpr ⟨old.plain, fun other member => ?_⟩
      rw [List.mem_singleton.mp member, isOwned]
      exact plain
  · rw [ScopeRecord.bindings, List.map_append, List.map_singleton, same]
    rfl
  · intro binding _
    simp only [List.not_mem_nil, false_and, exists_false, or_false, Uses, record?_update]
    constructor
    · rintro ⟨place, record, there, other, member, used, isBinding⟩
      obtain ⟨old, found, rfl⟩ := Option.map_eq_some_iff.mp there
      refine ⟨place, old, found, other, ?_, used, isBinding⟩
      split at member
      · rcases List.mem_append.mp member with earlier | last
        · exact earlier
        · rw [List.mem_singleton.mp last, isOwned, fresh] at used
          cases used
      · exact member
    · rintro ⟨place, record, there, other, member, used, isBinding⟩
      refine ⟨place, _, by rw [there]; rfl, other, ?_, used, isBinding⟩
      split
      · exact List.mem_append_left _ member
      · exact member

end Survey

/-! ### Marks -/

theorem markUsed_eq : table.markUsed context name = table.update context
    (ScopeRecord.marked name) := rfl

/-- When a name is resolved, what it resolves to is used. -/
theorem uses_markUsed (tidy : table.Tidy) (finds : table.find? context name = some found)
    (binding : Binding) :
    (table.markUsed found.context name).Uses binding ↔ table.Uses binding ∨
    found.binding = binding := by
  obtain ⟨home, record, there, within, isName⟩ := mem_of_find? tidy.ordered finds
  have own := tidy.records home record there
  have isHome := own.located found within
  subst isHome
  simp only [Uses, markUsed_eq, record?_update]
  constructor
  · rintro ⟨place, marked, there', symbol, member, used, rfl⟩
    obtain ⟨old, found', rfl⟩ := Option.map_eq_some_iff.mp there'
    split at member
    · rename_i here
      subst here
      cases there.symm.trans found'
      obtain ⟨original, original', rfl⟩ := List.mem_map.mp member
      rw [binding_markSymbol]
      by_cases named : original.name = name
      · have same : original = found :=
          List.inj_on_of_nodup_map own.distinct original' within (named.trans isName.symm)
        exact .inr (congrArg Symbol.binding same.symm)
      · rw [markSymbol, if_neg (by simpa using named)] at used
        exact .inl ⟨_, record, there, original, original', used, rfl⟩
    · exact .inl ⟨place, old, found', symbol, member, used, rfl⟩
  · have kept : ∀ {place old symbol}, table.record? place = some old → symbol ∈ old.symbols →
        symbol.used = true ∨ place = found.context ∧ symbol.name = name →
        ∃ place' record', ((table.record? place').map fun record =>
          if place' = found.context then record.marked name else record) = some record' ∧
          ∃ symbol' ∈ record'.symbols, symbol'.used = true ∧ symbol'.binding = symbol.binding := by
      intro place old symbol found' member used
      refine ⟨place, _, by rw [found']; rfl, ?_⟩
      by_cases here : place = found.context
      · simp only [here, if_true]
        refine ⟨_, List.mem_map_of_mem member, ?_, binding_markSymbol name symbol⟩
        unfold markSymbol
        split
        · rfl
        · rename_i other
          exact used.resolve_right fun both => other (beq_iff_eq.mpr both.2)
      · simp only [here, if_false]
        exact ⟨symbol, member, used.resolve_right fun both => here both.1, rfl⟩
    rintro (⟨place, old, found', symbol, member, used, rfl⟩ | rfl)
    · exact kept found' member (.inl used)
    · exact kept there within (.inr ⟨rfl, isName⟩)

/-- When a name is resolved, just that changes. -/
theorem Survey.markUsed (tidy : table.Tidy) (finds : table.find? context name = some found)
    (means : ∀ binding : Binding, binding.kind ≠ .function →
      (found.binding = binding ↔ ∃ mention ∈ mentions, mention.target = some binding)) :
    table.Survey (table.markUsed found.context name) context [] [] mentions := by
  have kept : (table.update found.context (ScopeRecord.marked name)).Tidy :=
    tidy.update (fun _ => rfl) fun record there => (tidy.records _ record there).marked name
  refine elsewhere (update kept (fun _ => rfl) (fun record _ => ?_) fun binding kind => ?_) context
  · rw [record.bindings_marked, List.append_nil]
  · rw [← means binding kind]
    exact uses_markUsed tidy finds binding

end ScopeTable

end ScriptCompiler
