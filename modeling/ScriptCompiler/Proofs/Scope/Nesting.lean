import Mathlib.Data.List.Nodup
import Mathlib.Logic.Relation
import ScriptCompiler.Proofs.Lowering.Scopes

/-!
# How scopes nest

A context lies in another one if its chain leads there.  In a well ordered table a name stands for
what the nearest context binds it to (`Ordered.find?_of_nearest`), and the outline of a table is a
walk through all contexts, each with its symbols (`outline_lists`).
-/

namespace ScriptCompiler.ScopeTable

variable {table : ScopeTable} {context other place : Nat} {name : Bytes}

/-! ### Chains -/

/-- A context lies in another one, or is it. -/
def LiesIn (table : ScopeTable) : Nat → Nat → Prop :=
  Relation.ReflTransGen fun inner outer => table.parent? inner = some outer

/-- The nearest context on the chain of a context that something holds of. -/
inductive Nearest (table : ScopeTable) (holds : Nat → Prop) : Nat → Nat → Prop where
  | here {context : Nat} : holds context → Nearest table holds context context
  | outward {context parent place : Nat} : ¬ holds context → table.parent? context = some parent →
      Nearest table holds parent place → Nearest table holds context place

theorem Ordered.parent?_lt (ordered : table.Ordered) {parent : Nat}
    (above : table.parent? context = some parent) : parent < context := by
  obtain ⟨record, found, isParent⟩ := Option.bind_eq_some_iff.mp above
  exact ordered context record parent found isParent

theorem Ordered.le_of_liesIn (ordered : table.Ordered) (inside : table.LiesIn context other) :
    other ≤ context := by
  induction inside with
  | refl => exact Nat.le_refl _
  | tail _ above ih => exact Nat.le_trans (Nat.le_of_lt (ordered.parent?_lt above)) ih

theorem lt_of_parent? {parent : Nat} (above : table.parent? context = some parent) :
    context < table.records.length := by
  obtain ⟨record, found, -⟩ := Option.bind_eq_some_iff.mp above
  exact (List.getElem?_eq_some_iff.mp found).1

theorem Nearest.holds {holds : Nat → Prop} (nearest : table.Nearest holds context place) :
    holds place := by
  induction nearest with
  | here shown => exact shown
  | outward _ _ _ ih => exact ih

/-- A context binds a name itself. -/
def Binds (table : ScopeTable) (name : Bytes) (context : Nat) : Prop :=
  (table.local? context name).isSome

/-- A name stands for what the nearest context binds it to. -/
theorem Ordered.find?_of_nearest (ordered : table.Ordered)
    (nearest : table.Nearest (table.Binds name) context place) :
    table.find? context name = table.local? place name := by
  induction nearest with
  | here binds =>
      obtain ⟨symbol, found⟩ := Option.isSome_iff_exists.mp binds
      rw [find?_eq ordered, found]
      rfl
  | outward unbound above _ ih =>
      rw [find?_eq ordered, Option.not_isSome_iff_eq_none.mp unbound, above]
      exact ih

/-- A name stands for nothing where no context of the chain binds it, and otherwise one of them is
the nearest. -/
theorem Ordered.find?_eq_none_iff (ordered : table.Ordered) :
    table.find? context name = none ↔ ∀ place, table.LiesIn context place →
    ¬ table.Binds name place := by
  constructor
  · intro missing place inside
    induction inside using Relation.ReflTransGen.head_induction_on with
    | refl =>
        rw [find?_eq ordered, Option.or_eq_none_iff] at missing
        simp [Binds, missing.1]
    | head above _ ih =>
        rw [find?_eq ordered, Option.or_eq_none_iff, above] at missing
        exact ih missing.2
  · intro unbound
    induction context using Nat.strongRecOn with
    | ind context ih =>
        rw [find?_eq ordered, Option.or_eq_none_iff]
        refine ⟨Option.not_isSome_iff_eq_none.mp (unbound context .refl), ?_⟩
        cases above : table.parent? context with
        | none => rfl
        | some parent =>
            exact ih parent (ordered.parent?_lt above) fun place inside =>
              unbound place (.head above inside)

/-! ### The walk through the scopes -/

theorem mem_children : other ∈ table.children context ↔ table.parent? other = some context := by
  have parents : ((table.record? other).map ScopeRecord.parent == some (some context)) = true ↔
      table.parent? other = some context := by
    rw [beq_iff_eq, parent?]
    cases table.record? other <;> simp
  simp only [children, List.mem_filter, List.mem_range, parents]
  exact ⟨fun both => both.2, fun above => ⟨lt_of_parent? above, above⟩⟩

theorem nodup_children : (table.children context).Nodup := List.nodup_range.filter _

/-- The contexts in a context, each before those inside it; at most `height` levels of them. -/
def preorder (table : ScopeTable) : Nat → Nat → List Nat
  | 0, _ => []
  | height + 1, context =>
      if context < table.records.length then
        context :: (table.children context).flatMap (preorder table height)
      else []

theorem Ordered.mem_preorder (ordered : table.Ordered) {height : Nat}
    (enough : table.records.length ≤ context + height) :
    other ∈ table.preorder height context ↔ other < table.records.length ∧
    table.LiesIn other context := by
  induction height generalizing context with
  | zero =>
      simp only [preorder, List.not_mem_nil, false_iff, not_and]
      intro below inside
      have above := ordered.le_of_liesIn inside
      omega
  | succ height ih =>
      rw [preorder]
      split
      · rename_i below
        rw [List.mem_cons, List.mem_flatMap]
        constructor
        · rintro (rfl | ⟨child, isChild, member⟩)
          · exact ⟨below, .refl⟩
          · have above := mem_children.mp isChild
            have deeper := ordered.parent?_lt above
            obtain ⟨there, inside⟩ := (ih (by omega)).mp member
            exact ⟨there, inside.tail above⟩
        · rintro ⟨there, inside⟩
          cases inside with
          | refl => exact .inl rfl
          | @tail child _ inside above =>
              have deeper := ordered.parent?_lt above
              exact .inr ⟨child, mem_children.mpr above, (ih (by omega)).mpr ⟨there, inside⟩⟩
      · simp only [List.not_mem_nil, false_iff, not_and]
        intro below inside
        have above := ordered.le_of_liesIn inside
        omega

/-- Two contexts with one parent have nothing inside them in common. -/
theorem Ordered.siblings_apart (ordered : table.Ordered) {first second : Nat}
    (firstAbove : table.parent? first = some context)
    (secondAbove : table.parent? second = some context)
    (inFirst : table.LiesIn other first) (inSecond : table.LiesIn other second) :
    first = second := by
  have apart : ∀ {inner outer : Nat}, table.parent? inner = some context →
      table.parent? outer = some context → table.LiesIn inner outer → inner = outer := by
    intro inner outer innerAbove outerAbove inside
    cases inside using Relation.ReflTransGen.head_induction_on with
    | refl => rfl
    | head above rest =>
        cases innerAbove.symm.trans above
        have := ordered.le_of_liesIn rest
        have := ordered.parent?_lt outerAbove
        omega
  have unique : Relator.RightUnique fun inner outer => table.parent? inner = some outer :=
    fun _ _ _ one another => Option.some.inj (one.symm.trans another)
  rcases Relation.ReflTransGen.total_of_right_unique unique inFirst inSecond with inside | inside
  · exact apart firstAbove secondAbove inside
  · exact (apart secondAbove firstAbove inside).symm

theorem Ordered.nodup_preorder (ordered : table.Ordered) {height : Nat}
    (enough : table.records.length ≤ context + height) : (table.preorder height context).Nodup := by
  induction height generalizing context with
  | zero => exact List.nodup_nil
  | succ height ih =>
      have deeper : ∀ child ∈ table.children context, table.records.length ≤ child + height := by
        intro child isChild
        have := ordered.parent?_lt (mem_children.mp isChild)
        omega
      rw [preorder]
      split
      · rw [List.nodup_cons, List.mem_flatMap, List.nodup_flatMap]
        refine ⟨?_, fun child isChild => ih (deeper child isChild), ?_⟩
        · rintro ⟨child, isChild, member⟩
          have := ordered.le_of_liesIn ((ordered.mem_preorder (deeper child isChild)).mp member).2
          have := ordered.parent?_lt (mem_children.mp isChild)
          omega
        · refine nodup_children.imp_of_mem fun {first second} isFirst isSecond differ place inFirst
            inSecond => ?_
          exact differ (ordered.siblings_apart (mem_children.mp isFirst) (mem_children.mp isSecond)
            ((ordered.mem_preorder (deeper first isFirst)).mp inFirst).2
            ((ordered.mem_preorder (deeper second isSecond)).mp inSecond).2)
      · exact List.nodup_nil

/-! ### The lines of the outline -/

/-- A line of the outline: a scope, or one of its symbols. -/
inductive Line where
  | scope (place : Nat)
  | symbol (place index : Nat)

/-- The scope that a line belongs to. -/
def Line.owner : Line → Nat
  | .scope place | .symbol place _ => place

/-- There is such a line. -/
def Line.In (table : ScopeTable) : Line → Prop
  | .scope place => place < table.records.length
  | .symbol place index =>
      ∃ record, table.record? place = some record ∧ index < record.symbols.length

/-- A line as written, indented by the depth of the scope. -/
def Line.text (table : ScopeTable) (line : Line) : Bytes :=
  match table.record? line.owner with
  | none => []
  | some record =>
      let indent := Bytes.filled (2 * record.depth) 0x20
      match line with
      | .scope _ => indent ++ record.label ++ " (" ++ record.kind.name ++ ")\n"
      | .symbol _ index =>
          match record.symbols[index]? with
          | some declared => indent ++ "  " ++ declared.text ++ "\n"
          | none => []

/-- The lines of one scope. -/
def linesOf (table : ScopeTable) (context : Context) : List Line :=
  match table.record? context with
  | none => []
  | some record => .scope context :: (List.range record.symbols.length).map (.symbol context)

theorem mem_linesOf {line : Line} :
    line ∈ table.linesOf context ↔ line.owner = context ∧ line.In table := by
  rw [linesOf]
  cases found : table.record? context with
  | none =>
      have beyond : ¬ context < table.records.length :=
        Nat.not_lt.mpr (List.getElem?_eq_none_iff.mp found)
      cases line with
      | scope place =>
          simp only [List.not_mem_nil, Line.owner, Line.In, false_iff, not_and]
          rintro rfl
          exact beyond
      | symbol place index =>
          simp only [List.not_mem_nil, Line.owner, Line.In, false_iff, not_and]
          rintro rfl ⟨record, there, -⟩
          cases found.symm.trans there
  | some record =>
      have within : context < table.records.length := (List.getElem?_eq_some_iff.mp found).1
      cases line with
      | scope place =>
          simp only [List.mem_cons, Line.scope.injEq, List.mem_map, reduceCtorEq, and_false,
            exists_false, or_false, Line.owner, Line.In]
          exact ⟨fun same => ⟨same, same ▸ within⟩, fun both => both.1⟩
      | symbol place index =>
          simp only [List.mem_cons, reduceCtorEq, List.mem_map, List.mem_range, Line.symbol.injEq,
            false_or, Line.owner, Line.In]
          constructor
          · rintro ⟨number, below, rfl, rfl⟩
            exact ⟨rfl, record, found, below⟩
          · rintro ⟨rfl, other, there, below⟩
            cases found.symm.trans there
            exact ⟨index, below, rfl, rfl⟩

theorem nodup_linesOf : (table.linesOf context).Nodup := by
  rw [linesOf]
  split
  · exact List.nodup_nil
  · refine List.nodup_cons.mpr ⟨by simp, ?_⟩
    exact List.nodup_range.map fun _ _ same => (Line.symbol.inj same).2

/-- The lines of a scope spell its outline. -/
theorem flatMap_linesOf :
    (table.linesOf context).flatMap (Line.text table) =
      ((table.record? context).map ScopeRecord.outline).getD [] := by
  rw [linesOf]
  cases found : table.record? context with
  | none => rfl
  | some record =>
      have symbols : ∀ rest : List Symbol, ∀ earlier, record.symbols = earlier ++ rest →
          (List.range' earlier.length rest.length).flatMap
              (fun index => Line.text table (.symbol context index)) =
            rest.flatMap fun symbol =>
              (Bytes.filled (2 * record.depth) 0x20 ++ "  " ++ symbol.text ++ "\n" : Bytes) := by
        intro rest
        induction rest with
        | nil => exact fun _ _ => rfl
        | cons symbol rest ih =>
            intro earlier split
            have there : record.symbols[earlier.length]? = some symbol := by simp [split]
            have later := ih (earlier ++ [symbol]) (by simp [split])
            rw [List.length_append, List.length_singleton] at later
            rw [List.length_cons, List.range'_succ, List.flatMap_cons, List.flatMap_cons, later]
            simp only [Line.text, Line.owner, found, there]
      have all := symbols record.symbols [] rfl
      rw [List.length_nil, ← List.range_eq_range'] at all
      simp only [List.flatMap_cons, List.flatMap_map]
      rw [all]
      simp only [Line.text, Line.owner, found, Option.map_some, Option.getD_some,
        ScopeRecord.outline]

theorem outlineWithin_eq (height : Nat) :
    table.outlineWithin height context =
      ((table.preorder height context).flatMap table.linesOf).flatMap (Line.text table) := by
  induction height generalizing context with
  | zero => rfl
  | succ height ih =>
      rw [outlineWithin, preorder]
      cases found : table.record? context with
      | none =>
          have beyond : ¬ context < table.records.length :=
            Nat.not_lt.mpr (List.getElem?_eq_none_iff.mp found)
          rw [if_neg beyond]
          rfl
      | some record =>
          have within : context < table.records.length := (List.getElem?_eq_some_iff.mp found).1
          have inner : (table.children context).flatMap (table.outlineWithin height) =
              (((table.children context).flatMap (table.preorder height)).flatMap
                table.linesOf).flatMap (Line.text table) := by
            simp only [List.flatMap_assoc]
            exact List.flatMap_congr fun child _ => by simp only [ih, List.flatMap_assoc]
          rw [if_pos within, List.flatMap_cons, List.flatMap_append, flatMap_linesOf,
            found, ← inner]
          rfl

/-- **The outline lists every scope and every symbol once.** -/
theorem outline_lists (ordered : table.Ordered)
    (rooted : ∀ context < table.records.length, table.LiesIn context root) :
    ∃ lines : List Line, lines.Nodup ∧ (∀ line, line ∈ lines ↔ line.In table) ∧
      table.outline = lines.flatMap (Line.text table) := by
  have enough : table.records.length ≤ root + table.records.length := by simp [root]
  refine ⟨_, ?_, ?_, outlineWithin_eq table.records.length⟩
  · rw [List.nodup_flatMap]
    refine ⟨fun place _ => nodup_linesOf, (ordered.nodup_preorder enough).imp ?_⟩
    intro first second differ line inFirst inSecond
    exact differ ((mem_linesOf.mp inFirst).1.symm.trans (mem_linesOf.mp inSecond).1)
  · intro line
    have below : line.In table → line.owner < table.records.length := by
      cases line with
      | scope place => exact id
      | symbol place index => exact fun ⟨record, found, _⟩ => (List.getElem?_eq_some_iff.mp found).1
    simp only [List.mem_flatMap, ordered.mem_preorder enough, mem_linesOf]
    constructor
    · rintro ⟨place, -, -, there⟩
      exact there
    · intro there
      exact ⟨line.owner, ⟨below there, rooted _ (below there)⟩, rfl, there⟩

end ScriptCompiler.ScopeTable
