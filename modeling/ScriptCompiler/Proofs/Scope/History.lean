import Mathlib.Data.List.Induction
import ScriptCompiler.Proofs.Scope.Nesting

/-!
# Histories of scope tables

A table comes about by requests: scopes are opened, symbols are declared and names are resolved, in
any order.  What the table answers is read off the history of the requests.  In each context the
first declaration of a name counts, and a name that is used resolves to the declaration in the
nearest context around its use (`Reaches.lexical`).
-/

namespace ScriptCompiler

/-- A symbol that no name has been resolved to. -/
def Symbol.unmarked (symbol : Symbol) : Symbol := { symbol with used := false }

namespace ScopeTable

/-- A declaration as its caller sees it: why it is refused, if it is, and the symbol and the table
behind it. -/
def offer (table : ScopeTable) (context : Context) (symbol : Symbol) :
    Option Diagnostic × Symbol × ScopeTable :=
  match table.declare context symbol with
  | .ok (owned, declared) => (none, owned, declared)
  | .error diagnostic => (some diagnostic, symbol, table)

/-- A request to a table. -/
inductive Request where
  /-- Open a scope inside a context. -/
  | child (parent : Context) (kind : ScopeKind) (label : Bytes)
  /-- Declare a symbol in a context. -/
  | declare (context : Context) (symbol : Symbol)
  /-- Resolve a name that is used in a context. -/
  | resolve (context : Context) (name : Bytes) (use : Position)

namespace Request

/-- The context that a request is about. -/
def context : Request → Nat
  | .child context .. | .declare context _ | .resolve context .. => context

/-- The table behind a request. -/
def after (table : ScopeTable) : Request → ScopeTable
  | .child parent kind label => (table.child parent kind label).2
  | .declare context symbol => (table.offer context symbol).2.2
  | .resolve context name use =>
      match table.resolve context name use with
      | .ok (_, marked) => marked
      | .error _ => table

/-- The symbol that a request declares in a context. -/
def declared? (place : Nat) : Request → Option Symbol
  | .declare context symbol => if context = place then some symbol else none
  | _ => none

end Request

/-- A table comes about by requests about contexts that are there. -/
inductive Reaches (file : SourceFile) : List Request → ScopeTable → Prop where
  | start : Reaches file [] (ofFile file)
  | step {history : List Request} {table : ScopeTable} {request : Request} :
      Reaches file history table → request.context < table.records.length →
      Reaches file (history ++ [request]) (request.after table)

/-- A history declares a name in a context. -/
def Declares (history : List Request) (name : Bytes) (context : Nat) : Prop :=
  ∃ symbol, .declare context symbol ∈ history ∧ symbol.name = name

/-! ### What counts in a history -/

/-- The first one of the symbols with each name. -/
def firsts (symbols : List Symbol) : List Symbol :=
  symbols.foldl (fun kept symbol =>
    if kept.any fun other => other.name == symbol.name then kept else kept ++ [symbol]) []

/-- The symbols that a history gives a context, numbered in order. -/
def registered (history : List Request) (context : Nat) : List Symbol :=
  (firsts (history.filterMap (Request.declared? context))).mapIdx fun index symbol =>
    { symbol with context, index }

section Counting

variable {history : List Request} {request : Request} {context : Nat} {symbols : List Symbol}
  {symbol : Symbol} {name : Bytes}

theorem firsts_concat :
    firsts (symbols ++ [symbol]) =
      if symbol.name ∈ (firsts symbols).map Symbol.name then firsts symbols
      else firsts symbols ++ [symbol] := by
  have there : ((firsts symbols).any fun other => other.name == symbol.name) = true ↔
      symbol.name ∈ (firsts symbols).map Symbol.name := by
    simp [List.any_eq_true, List.mem_map]
  rw [firsts, List.foldl_append, ← firsts, List.foldl_cons, List.foldl_nil]
  by_cases known : symbol.name ∈ (firsts symbols).map Symbol.name
  · rw [if_pos known, if_pos (there.mpr known)]
  · rw [if_neg known, if_neg fun any => known (there.mp any)]

theorem mem_names_firsts : name ∈ (firsts symbols).map Symbol.name ↔
    name ∈ symbols.map Symbol.name := by
  induction symbols using List.reverseRecOn with
  | nil => rfl
  | append_singleton symbols symbol ih =>
      rw [firsts_concat]
      split
      · rename_i known
        rw [ih, List.map_append, List.mem_append]
        refine ⟨.inl, fun either => either.elim id fun same => ?_⟩
        rw [List.map_singleton, List.mem_singleton] at same
        exact ih.mp (same ▸ known)
      · simp only [List.map_append, List.mem_append, ih]

theorem nodup_names_firsts : ((firsts symbols).map Symbol.name).Nodup := by
  induction symbols using List.reverseRecOn with
  | nil => exact List.nodup_nil
  | append_singleton symbols symbol ih =>
      rw [firsts_concat]
      split
      · exact ih
      · rename_i new
        rw [List.map_append, List.map_singleton]
        exact List.concat_eq_append ▸ ih.concat new

theorem names_registered :
    (registered history context).map Symbol.name =
      (firsts (history.filterMap (Request.declared? context))).map Symbol.name := by
  apply List.ext_getElem?
  intro index
  simp only [registered, List.getElem?_map, List.getElem?_mapIdx, Option.map_map]
  rfl

theorem nodup_names_registered : ((registered history context).map Symbol.name).Nodup := by
  rw [names_registered]
  exact nodup_names_firsts

theorem mem_names_registered :
    name ∈ (registered history context).map Symbol.name ↔ Declares history name context := by
  rw [names_registered, mem_names_firsts, List.mem_map, Declares]
  constructor
  · rintro ⟨symbol, offered, isName⟩
    obtain ⟨request, member, declares⟩ := List.mem_filterMap.mp offered
    unfold Request.declared? at declares
    split at declares
    · split at declares
      · rename_i same
        cases declares
        exact ⟨symbol, same ▸ member, isName⟩
      · cases declares
    · cases declares
  · rintro ⟨symbol, member, isName⟩
    exact ⟨symbol, List.mem_filterMap.mpr ⟨_, member, if_pos rfl⟩, isName⟩

theorem registered_of_none (declares : request.declared? context = none) :
    registered (history ++ [request]) context = registered history context := by
  simp [registered, declares]

theorem registered_of_mem (known : symbol.name ∈ (registered history context).map Symbol.name) :
    registered (history ++ [Request.declare context symbol]) context =
      registered history context := by
  rw [names_registered] at known
  simp [registered, Request.declared?, firsts_concat, known]

theorem registered_of_notMem (new : symbol.name ∉ (registered history context).map Symbol.name) :
    registered (history ++ [Request.declare context symbol]) context =
      registered history context ++
        [{ symbol with context, index := (registered history context).length }] := by
  rw [names_registered] at new
  simp only [registered, List.filterMap_append, List.filterMap_cons, List.filterMap_nil,
    Request.declared?, if_true, firsts_concat, new, if_false, List.mapIdx_append, List.mapIdx_cons,
    List.mapIdx_nil, List.length_mapIdx, Nat.zero_add]

end Counting

/-! ### Tables that follow a history -/

/-- A table holds what a history gives its contexts. -/
structure Follows (file : SourceFile) (history : List Request) (table : ScopeTable) : Prop where
  stem : table.stem = file.stem
  rooted : ∃ record, table.record? root = some record ∧ record.parent = none ∧ record.depth = 0
  nested : ∀ context record, context ≠ root → table.record? context = some record →
    ∃ parent outer, record.parent = some parent ∧ parent < context ∧
      table.record? parent = some outer ∧ record.depth = outer.depth + 1
  symbols : ∀ context record, table.record? context = some record →
    record.symbols.map Symbol.unmarked = (registered history context).map Symbol.unmarked
  unopened : ∀ context, table.records.length ≤ context → registered history context = []

namespace Follows

variable {file : SourceFile} {history : List Request} {table : ScopeTable} {context : Nat}

theorem names (follows : Follows file history table) {record : ScopeRecord}
    (found : table.record? context = some record) :
    record.symbols.map Symbol.name = (registered history context).map Symbol.name := by
  have same := congrArg (List.map Symbol.name) (follows.symbols context record found)
  rwa [List.map_map, List.map_map] at same

theorem ordered (follows : Follows file history table) : table.Ordered := by
  intro context record parent found above
  by_cases isRoot : context = root
  · obtain ⟨other, there, alone, -⟩ := follows.rooted
    cases (isRoot ▸ found).symm.trans there
    cases alone.symm.trans above
  · obtain ⟨other, -, same, below, -⟩ := follows.nested context record isRoot found
    cases above.symm.trans same
    exact below

/-- A context binds a name exactly if the history declares the name there. -/
theorem binds_iff (follows : Follows file history table) (name : Bytes) (context : Nat) :
    table.Binds name context ↔ Declares history name context := by
  rw [← mem_names_registered, Binds, local?]
  cases found : table.record? context with
  | none => simp [follows.unopened context (List.getElem?_eq_none_iff.mp found)]
  | some record => simp [ScopeRecord.find?, ← follows.names found]

theorem start : Follows file [] (ofFile file) where
  stem := rfl
  rooted := ⟨_, rfl, rfl, rfl⟩
  nested := by
    intro context record notRoot found
    have beyond : 1 ≤ context := Nat.one_le_iff_ne_zero.mpr notRoot
    rw [record?, List.getElem?_eq_none (by exact beyond)] at found
    cases found
  symbols := by
    intro context record found
    obtain ⟨below, rfl⟩ := List.getElem?_eq_some_iff.mp found
    obtain rfl : context = 0 := Nat.lt_one_iff.mp below
    rfl
  unopened := fun _ _ => rfl

/-- Opening a scope adds a context that nothing has been declared in. -/
theorem child (follows : Follows file history table) (kind : ScopeKind) (label : Bytes)
    (inside : context < table.records.length) :
    Follows file (history ++ [Request.child context kind label])
      (table.child context kind label).2 := by
  have same : ∀ place, registered (history ++ [Request.child context kind label]) place =
      registered history place := fun place => registered_of_none rfl
  obtain ⟨outer, isOuter⟩ : ∃ outer, table.record? context = some outer :=
    ⟨_, List.getElem?_eq_getElem inside⟩
  have opened : (table.child context kind label).2.record? table.records.length =
      some { parent := some context, label, kind, depth := outer.depth + 1 } := by
    have : table.records[context]? = some outer := isOuter
    simp [ScopeTable.child, record?, this]
  have length : (table.child context kind label).2.records.length = table.records.length + 1 := by
    simp [ScopeTable.child]
  have places : ∀ {place record}, (table.child context kind label).2.record? place = some record →
      place = table.records.length ∨ place < table.records.length := by
    intro place record found
    have below := (List.getElem?_eq_some_iff.mp found).1
    rw [length] at below
    exact (Nat.lt_succ_iff_lt_or_eq.mp below).symm
  refine ⟨follows.stem, ?_, ?_, ?_, ?_⟩
  · obtain ⟨record, found, rest⟩ := follows.rooted
    exact ⟨record, (record?_child (Nat.zero_lt_of_lt inside)).trans found, rest⟩
  · intro place record notRoot found
    rcases places found with rfl | below
    · cases opened.symm.trans found
      exact ⟨context, outer, rfl, inside, (record?_child inside).trans isOuter, rfl⟩
    · rw [record?_child below] at found
      obtain ⟨parent, around, above, lower, there, depth⟩ :=
        follows.nested place record notRoot found
      exact ⟨parent, around, above, lower, (record?_child (Nat.lt_trans lower below)).trans there,
        depth⟩
  · intro place record found
    rw [same]
    rcases places found with rfl | below
    · cases opened.symm.trans found
      rw [follows.unopened _ (Nat.le_refl _)]
    · exact follows.symbols place record ((record?_child below).symm.trans found)
  · intro place beyond
    rw [same]
    rw [length] at beyond
    exact follows.unopened place (Nat.le_of_succ_le beyond)

/-- A change of the symbols of one context that the history follows. -/
theorem update (follows : Follows file history table) {request : Request}
    {change : ScopeRecord → ScopeRecord}
    (parents : ∀ record, (change record).parent = record.parent)
    (depths : ∀ record, (change record).depth = record.depth)
    (changed : ∀ record, table.record? context = some record →
      (change record).symbols.map Symbol.unmarked =
        (registered (history ++ [request]) context).map Symbol.unmarked)
    (others : ∀ place, place ≠ context →
      registered (history ++ [request]) place = registered history place)
    (unopened : ∀ place, table.records.length ≤ place →
      registered (history ++ [request]) place = []) :
    Follows file (history ++ [request]) (table.update context change) := by
  have records : ∀ {place record}, (table.update context change).record? place = some record →
      ∃ old, table.record? place = some old ∧ record.parent = old.parent ∧
      record.depth = old.depth ∧
        record = if place = context then change old else old := by
    intro place record found
    rw [record?_update] at found
    obtain ⟨old, there, rfl⟩ := Option.map_eq_some_iff.mp found
    refine ⟨old, there, ?_, ?_, rfl⟩
    · split
      · exact parents old
      · rfl
    · split
      · exact depths old
      · rfl
  have kept : ∀ {place old}, table.record? place = some old →
      ∃ record, (table.update context change).record? place = some record ∧
        record.parent = old.parent ∧ record.depth = old.depth := by
    intro place old there
    have found : (table.update context change).record? place =
        some (if place = context then change old else old) := by
      rw [record?_update, there, Option.map_some]
    obtain ⟨again, there', parent, depth, -⟩ := records found
    cases there.symm.trans there'
    exact ⟨_, found, parent, depth⟩
  refine ⟨follows.stem, ?_, ?_, ?_, ?_⟩
  · obtain ⟨old, there, alone, flat⟩ := follows.rooted
    obtain ⟨record, found, parent, depth⟩ := kept there
    exact ⟨record, found, parent.trans alone, depth.trans flat⟩
  · intro place record notRoot found
    obtain ⟨old, there, sameParent, sameDepth, -⟩ := records found
    obtain ⟨parent, outer, above, lower, around, deeper⟩ := follows.nested place old notRoot there
    obtain ⟨outer', around', -, depth⟩ := kept around
    exact ⟨parent, outer', sameParent.trans above, lower, around', by rw [sameDepth, deeper, depth]⟩
  · intro place record found
    obtain ⟨old, there, -, -, rfl⟩ := records found
    by_cases here : place = context
    · subst here
      rw [if_pos rfl]
      exact changed old there
    · rw [if_neg here, others place here]
      exact follows.symbols place old there
  · intro place beyond
    rw [records_length_update] at beyond
    exact unopened place beyond

/-- A declaration counts unless the context declares the name already. -/
theorem declare (follows : Follows file history table) (symbol : Symbol)
    (inside : context < table.records.length) :
    Follows file (history ++ [Request.declare context symbol])
      (table.offer context symbol).2.2 := by
  have others : ∀ place, place ≠ context →
      registered (history ++ [Request.declare context symbol]) place = registered history place :=
    fun place differ => registered_of_none (if_neg fun same => differ same.symm)
  have unopened : ∀ place, table.records.length ≤ place →
      registered (history ++ [Request.declare context symbol]) place = [] := fun place beyond => by
    rw [others place (Nat.ne_of_gt (Nat.lt_of_lt_of_le inside beyond)),
      follows.unopened place beyond]
  have bound : table.local? context symbol.name = none ↔
      symbol.name ∉ (registered history context).map Symbol.name := by
    rw [mem_names_registered, ← follows.binds_iff, Binds, Option.not_isSome_iff_eq_none]
  unfold offer
  cases run : table.declare context symbol with
  | ok result =>
      obtain ⟨owned, after⟩ := result
      obtain ⟨absent, isOwned, rfl⟩ := declare_ok run
      refine follows.update (fun _ => rfl) (fun _ => rfl) ?_ others unopened
      intro record found
      have index : record.symbols.length = (registered history context).length := by
        rw [← List.length_map Symbol.unmarked, follows.symbols context record found,
          List.length_map]
      rw [registered_of_notMem (bound.mp absent), List.map_append, List.map_append,
        follows.symbols context record found, ← index, isOwned, found]
      rfl
  | error diagnostic =>
      have known : symbol.name ∈ (registered history context).map Symbol.name := by
        by_contra new
        rw [ScopeTable.declare, bound.mpr new] at run
        cases run
      have same : ∀ place,
          registered (history ++ [Request.declare context symbol]) place =
            registered history place := by
        intro place
        by_cases here : place = context
        · subst here
          exact registered_of_mem known
        · exact others place here
      exact { follows with
        symbols := fun place record found => (same place).symm ▸ follows.symbols place record found
        unopened := unopened }

/-- A name that is resolved counts for nothing. -/
theorem resolve (follows : Follows file history table) (context : Nat) (name : Bytes)
    (use : Position) :
    Follows file (history ++ [Request.resolve context name use])
      ((Request.resolve context name use).after table) := by
  have same : ∀ place, registered (history ++ [Request.resolve context name use]) place =
      registered history place := fun place => registered_of_none rfl
  simp only [Request.after]
  cases run : table.resolve context name use with
  | ok result =>
      obtain ⟨symbol, found, rfl⟩ := Lowering.resolve_ok.mp run
      refine follows.update (fun _ => rfl) (fun _ => rfl) ?_ (fun place _ => same place)
        fun place beyond => (same place).trans (follows.unopened place beyond)
      intro record there
      rw [same, ← follows.symbols _ record there, List.map_map]
      refine List.map_congr_left fun declared _ => ?_
      rw [Function.comp_apply]
      split <;> rfl
  | error diagnostic =>
      exact { follows with
        symbols := fun place record found => (same place).symm ▸ follows.symbols place record found
        unopened := fun place beyond => (same place).trans (follows.unopened place beyond) }

end Follows

theorem Reaches.follows {file : SourceFile} {history : List Request} {table : ScopeTable}
    (reaches : Reaches file history table) : Follows file history table := by
  induction reaches with
  | start => exact .start
  | @step history table request _ inside ih =>
      cases request with
      | child context kind label => exact ih.child kind label inside
      | declare context symbol => exact ih.declare symbol inside
      | resolve context name use => exact ih.resolve context name use

/-! ### What tables answer -/

section Answers

variable {file : SourceFile} {history : List Request} {table : ScopeTable}
    {context other place : Nat}
  {name : Bytes} {symbol : Symbol}

/-- Outside of a context nothing is seen of a change in it. -/
theorem Ordered.find?_update (ordered : table.Ordered) {change : ScopeRecord → ScopeRecord}
    (parents : ∀ record, (change record).parent = record.parent)
    (apart : ¬ table.LiesIn other context) :
    (table.update context change).find? other name = table.find? other name := by
  induction other using Nat.strongRecOn with
  | ind other ih =>
      have differ : other ≠ context := fun same => apart (same ▸ .refl)
      rw [find?_eq (ordered.update parents), find?_eq ordered, local?_update_of_ne differ,
        parent?_update parents]
      congr 1
      cases above : table.parent? other with
      | none => rfl
      | some parent =>
          exact ih parent (ordered.parent?_lt above) fun inside => apart (.head above inside)

theorem map_resolve_congr {table' : ScopeTable}
    (finds : table'.find? context name = table.find? context name)
    (origins : table'.origin context = table.origin context) (use : Position) :
    (table'.resolve context name use).map Prod.fst =
      (table.resolve context name use).map Prod.fst := by
  rw [ScopeTable.resolve, ScopeTable.resolve, finds, origins]
  cases table.find? context name <;> rfl

theorem Follows.offer_resolve (follows : Follows file history table) (symbol : Symbol)
    (apart : ¬ table.LiesIn other context) (name : Bytes) (use : Position) :
    ((table.offer context symbol).2.2.resolve other name use).map Prod.fst =
      (table.resolve other name use).map Prod.fst := by
  unfold offer
  cases run : table.declare context symbol with
  | error diagnostic => rfl
  | ok result =>
      obtain ⟨owned, after⟩ := result
      obtain ⟨-, -, rfl⟩ := declare_ok run
      let change : ScopeRecord → ScopeRecord := fun record =>
        { record with symbols := record.symbols ++ [owned] }
      have finds : (table.update context change).find? other name = table.find? other name :=
        follows.ordered.find?_update (fun _ => rfl) apart
      have labels : (table.update context change).label other = table.label other := by
        rw [label, label, record?_update, Option.map_map]
        congr 2
        funext record
        simp only [Function.comp_apply, change]
        split <;> rfl
      have origins : (table.update context change).origin other = table.origin other := by
        rw [origin, origin, labels]
        rfl
      exact map_resolve_congr finds origins use

theorem Follows.registered_of_local? (follows : Follows file history table)
    (found : table.local? context name = some symbol) :
    ∃ owned ∈ registered history context, owned.name = name ∧ owned.unmarked = symbol.unmarked := by
  obtain ⟨record, there, finds⟩ := Option.bind_eq_some_iff.mp found
  have member : symbol.unmarked ∈ record.symbols.map Symbol.unmarked :=
    List.mem_map_of_mem (List.mem_of_find?_eq_some finds)
  rw [follows.symbols context record there] at member
  obtain ⟨owned, within, same⟩ := List.mem_map.mp member
  have isName : symbol.name = name := by simpa using List.find?_some finds
  exact ⟨owned, within, (congrArg Symbol.name same).trans isName, same⟩

theorem Follows.nearest_iff (follows : Follows file history table) :
    table.Nearest (Declares history name) context place ↔
      table.Nearest (table.Binds name) context place := by
  have same : table.Binds name = Declares history name :=
    funext fun context => propext (follows.binds_iff name context)
  rw [same]

theorem Follows.resolve_nearest (follows : Follows file history table) (use : Position)
    (nearest : table.Nearest (Declares history name) context place) :
    ∃ owned ∈ registered history place, owned.name = name ∧
      ∃ marked, table.resolve context name use = .ok ({ owned with used := true }, marked) := by
  have bound := follows.nearest_iff.mp nearest
  obtain ⟨symbol, found⟩ := Option.isSome_iff_exists.mp bound.holds
  obtain ⟨owned, member, isName, same⟩ := follows.registered_of_local? found
  have used : ({ owned with used := true } : Symbol) = { symbol with used := true } :=
    congrArg (fun symbol : Symbol => { symbol with used := true }) same
  refine ⟨owned, member, isName, table.markUsed symbol.context name, ?_⟩
  rw [used]
  exact Lowering.resolve_ok.mpr ⟨symbol, (follows.ordered.find?_of_nearest bound).trans found, rfl⟩

theorem resolve_error {use : Position} {diagnostic : Diagnostic}
    (fails : table.resolve context name use = .error diagnostic) :
    table.find? context name = none ∧ diagnostic.category = .noSuchVariable ∧
      diagnostic.position = use ∧ diagnostic.origin = table.origin context := by
  unfold ScopeTable.resolve at fails
  split at fails
  · cases fails
  · rename_i missing
    cases fails
    exact ⟨missing, rfl, rfl, rfl⟩

theorem Follows.resolve_fails_iff (follows : Follows file history table) (use : Position) :
    (∃ diagnostic, table.resolve context name use = .error diagnostic) ↔
      ∀ place, table.LiesIn context place → ¬ Declares history name place := by
  have bound : (∀ place, table.LiesIn context place → ¬ Declares history name place) ↔
      table.find? context name = none := by
    simp only [follows.ordered.find?_eq_none_iff, follows.binds_iff]
  rw [bound]
  constructor
  · rintro ⟨diagnostic, fails⟩
    exact (resolve_error fails).1
  · intro missing
    rw [ScopeTable.resolve, missing]
    exact ⟨_, rfl⟩

/-- A declaration succeeds exactly if the name is new in its context. -/
theorem Follows.offer_cases (follows : Follows file history table)
    (inside : context < table.records.length) (symbol : Symbol) :
    Declares history symbol.name context ∧
        (∃ diagnostic, table.offer context symbol = (some diagnostic, symbol, table) ∧
          diagnostic.category = .duplicateName ∧ diagnostic.position = symbol.position ∧
          diagnostic.origin = table.origin context) ∨
      ¬ Declares history symbol.name context ∧
        (table.offer context symbol).1 = none ∧
        (table.offer context symbol).2.1 =
          { symbol with context, index := (registered history context).length } := by
  obtain ⟨record, there⟩ : ∃ record, table.record? context = some record :=
    ⟨_, List.getElem?_eq_getElem inside⟩
  have length : record.symbols.length = (registered history context).length := by
    rw [← List.length_map Symbol.unmarked, follows.symbols context record there, List.length_map]
  rw [← follows.binds_iff, Binds]
  unfold offer ScopeTable.declare
  cases table.local? context symbol.name with
  | some existing => exact .inl ⟨rfl, _, rfl, rfl, rfl, rfl⟩
  | none => exact .inr ⟨by simp, rfl, by simp [there, length]⟩

theorem Follows.numbered (follows : Follows file history table) {record : ScopeRecord}
    (found : table.record? context = some record) {index : Nat}
    (there : record.symbols[index]? = some symbol) :
    symbol.context = context ∧ symbol.index = index := by
  have same := congrArg (fun symbols : List Symbol => symbols[index]?)
    (follows.symbols context record found)
  simp only [List.getElem?_map, there, Option.map_some, registered, List.getElem?_mapIdx,
    Option.map_map] at same
  obtain ⟨first, -, isFirst⟩ := Option.map_eq_some_iff.mp same.symm
  exact ⟨(congrArg Symbol.context isFirst).symm, (congrArg Symbol.index isFirst).symm⟩

theorem Follows.liesIn_root (follows : Follows file history table) :
    ∀ context < table.records.length, table.LiesIn context root := by
  intro context
  induction context using Nat.strongRecOn with
  | ind context ih =>
      intro inside
      obtain ⟨record, found⟩ : ∃ record, table.record? context = some record :=
        ⟨_, List.getElem?_eq_getElem inside⟩
      by_cases isRoot : context = root
      · exact isRoot ▸ .refl
      · obtain ⟨parent, outer, isParent, below, -, -⟩ := follows.nested context record isRoot found
        have above : table.parent? context = some parent := by
          rw [parent?, found]
          exact isParent
        exact .head above (ih parent below (Nat.lt_trans below inside))

end Answers

/-- Scope lookup is lexical: what a table holds and answers is what its history and the nesting of
its contexts say. -/
structure Lexical (file : SourceFile) (history : List Request) (table : ScopeTable) : Prop where
  /-- The root has no parent. -/
  rooted : ∃ record, table.record? root = some record ∧ record.parent = none ∧ record.depth = 0
  /-- Every other context stands behind its parent, and one deeper. -/
  nested : ∀ context record, context ≠ root → table.record? context = some record →
    ∃ parent outer, record.parent = some parent ∧ parent < context ∧
      table.record? parent = some outer ∧ record.depth = outer.depth + 1
  /-- A context binds each name once, to what the history declared first, and numbers its symbols in
  the order of their declarations. -/
  numbered : ∀ context record, table.record? context = some record →
    (record.symbols.map Symbol.name).Nodup ∧
      record.symbols.map Symbol.unmarked = (registered history context).map Symbol.unmarked ∧
      ∀ (index : Nat) (symbol : Symbol), record.symbols[index]? = some symbol →
        symbol.context = context ∧ symbol.index = index
  /-- A name resolves to its declaration in the nearest context of the chain. -/
  resolved : ∀ context name use place, table.Nearest (Declares history name) context place →
    ∃ owned ∈ registered history place, owned.name = name ∧
      ∃ marked, table.resolve context name use = .ok ({ owned with used := true }, marked)
  /-- It does not resolve exactly if no context of the chain declares it. -/
  unresolved : ∀ context name use,
    (∃ diagnostic, table.resolve context name use = .error diagnostic) ↔
      ∀ place, table.LiesIn context place → ¬ Declares history name place
  /-- Then the use is blamed, in its own context. -/
  blamed : ∀ context name use diagnostic, table.resolve context name use = .error diagnostic →
    diagnostic.category = .noSuchVariable ∧ diagnostic.position = use ∧
      diagnostic.origin = ⟨file.stem, table.label context⟩
  /-- A second declaration of a name in its context is refused and changes neither symbol nor table;
  any other one gives the symbol its place. -/
  offered : ∀ context < table.records.length, ∀ symbol,
    Declares history symbol.name context ∧
        (∃ diagnostic, table.offer context symbol = (some diagnostic, symbol, table) ∧
          diagnostic.category = .duplicateName ∧ diagnostic.position = symbol.position ∧
          diagnostic.origin = table.origin context) ∨
      ¬ Declares history symbol.name context ∧
        (table.offer context symbol).1 = none ∧
        (table.offer context symbol).2.1 =
          { symbol with context, index := (registered history context).length }
  /-- A declaration is not seen from outside its context. -/
  hidden : ∀ context symbol other, ¬ table.LiesIn other context → ∀ name use,
    ((table.offer context symbol).2.2.resolve other name use).map Prod.fst =
      (table.resolve other name use).map Prod.fst
  /-- The outline lists every context and every symbol once. -/
  listed : ∃ lines : List Line, lines.Nodup ∧ (∀ line, line ∈ lines ↔ line.In table) ∧
    table.outline = lines.flatMap (Line.text table)

/-- **Scope lookup is lexical, whatever the history of a table.** -/
theorem Reaches.lexical {file : SourceFile} {history : List Request} {table : ScopeTable}
    (reaches : Reaches file history table) : Lexical file history table := by
  have follows := reaches.follows
  exact {
    rooted := follows.rooted
    nested := follows.nested
    numbered := fun context record found =>
      ⟨follows.names found ▸ nodup_names_registered, follows.symbols context record found,
        fun _ _ => follows.numbered found⟩
    resolved := fun _ _ use _ => follows.resolve_nearest use
    unresolved := fun _ _ use => follows.resolve_fails_iff use
    blamed := fun context _ _ _ fails =>
      have ⟨_, category, position, origin⟩ := resolve_error fails
      ⟨category, position, origin.trans (by rw [ScopeTable.origin, follows.stem])⟩
    offered := fun _ inside => follows.offer_cases inside
    hidden := fun _ symbol _ apart => follows.offer_resolve symbol apart
    listed := outline_lists follows.ordered follows.liesIn_root }

/-- A name declared at top level, in a block, and at top level once more. -/
def shadowing : List Request :=
  let symbol (offset : Nat) : Symbol := ⟨"x", .variable, none, { offset := offset }, 0, 0, false⟩
  [.declare root (symbol 4), .child root .block "block", .declare 1 (symbol 17),
    .declare root (symbol 31)]

/-- The name stands for its declaration in the block there, and for the first one outside. -/
theorem lexical_shadowing : ∃ table, Reaches ⟨"shadow.tss", []⟩ shadowing table ∧
    (∃ symbol marked, table.resolve 1 "x" {} = .ok (symbol, marked) ∧ symbol.position.offset = 17) ∧
    (∃ symbol marked, table.resolve root "x" {} = .ok (symbol, marked) ∧
      symbol.position.offset = 4) ∧
    ∃ diagnostic, table.resolve 1 "y" {} = .error diagnostic ∧
      diagnostic.category = .noSuchVariable := by
  obtain ⟨table, reaches⟩ : ∃ table, Reaches ⟨"shadow.tss", []⟩ shadowing table :=
    ⟨_, @Reaches.step _ _ _ shadowing[3] (@Reaches.step _ _ _ shadowing[2] (@Reaches.step _ _ _
      shadowing[1] (@Reaches.step _ _ _ shadowing[0] .start (by decide)) (by decide)) (by decide))
      (by decide)⟩
  have lexical := Reaches.lexical reaches
  refine ⟨_, reaches, ?_, ?_, ?_⟩
  · obtain ⟨owned, member, -, marked, run⟩ := lexical.resolved 1 "x" {} 1
      (.here ⟨_, .tail _ (.tail _ (.head _)), rfl⟩)
    obtain rfl := List.mem_singleton.mp member
    exact ⟨_, marked, run, rfl⟩
  · obtain ⟨owned, member, -, marked, run⟩ := lexical.resolved root "x" {} root
      (.here ⟨_, .head _, rfl⟩)
    obtain rfl := List.mem_singleton.mp member
    exact ⟨_, marked, run, rfl⟩
  · obtain ⟨diagnostic, run⟩ := (lexical.unresolved 1 "y" {}).mpr fun place _ declares => by
      obtain ⟨symbol, member, isName⟩ := declares
      have onlyX : symbol.name = "x" := by
        simp only [shadowing, List.mem_cons, Request.declare.injEq, reduceCtorEq, List.not_mem_nil,
          or_false, false_or] at member
        rcases member with ⟨-, rfl⟩ | ⟨-, rfl⟩ | ⟨-, rfl⟩ <;> rfl
      exact absurd (onlyX.symm.trans isName) (by decide)
    exact ⟨diagnostic, run, (lexical.blamed 1 "y" {} diagnostic run).1⟩

end ScopeTable

end ScriptCompiler
