import ScriptCompiler.Proofs.Reordering.Functions
import ScriptCompiler.Proofs.Statics.Programs

/-!
# Modules of programs with functions in another order

A module is made piece by piece (`lowerItems_assembles`).  When the functions of a program are put
in another order, so are its pieces, and nothing else changes: names stand for the same functions.
So both modules hold the same functions up to the places of string constants, and the same string
constants and declarations (`Assembles.alike`).
-/

namespace ScriptCompiler.Lowering

open IR Build Statics

variable {signature? : Bytes → Option Signature} {state last state' last' : State}
  {options : EntryOptions} {stem : Bytes} {program program' : Program}

section Lists

variable {α β γ : Type}

/-- In a list without repeated names, it does not matter where an item stands. -/
theorem find?_name_of_perm {names : α → Bytes} {items items' : List α} (perm : items.Perm items')
    (distinct : (items.map names).Nodup) (name : Bytes) :
    (items.find? fun item => names item == name) = items'.find? fun item => names item == name := by
  induction perm with
  | nil => rfl
  | cons item _ ih =>
      rw [List.find?_cons, List.find?_cons, ih (List.nodup_cons.mp distinct).2]
  | swap first second rest =>
      have differ : names second ≠ names first := by
        have alone := (List.nodup_cons.mp distinct).1
        simp only [List.map_cons, List.mem_cons, not_or] at alone
        exact alone.1
      simp only [List.find?_cons]
      cases isFirst : names first == name with
      | false => rfl
      | true =>
          have notSecond : (names second == name) = false := by
            rw [beq_eq_false_iff_ne]
            exact fun same => differ (same.trans (beq_iff_eq.mp isFirst).symm)
          rw [notSecond]
  | trans first _ ih ih' =>
      exact (ih distinct).trans (ih' ((first.map names).nodup_iff.mp distinct))

/-- Items that are aligned with the same keys, in whatever order, are the images of each other. -/
theorem perm_of_aligned {left : γ → α → Prop} {right : γ → β → Prop} {convert : α → β}
    (same : ∀ key item item', left key item → right key item' → item' = convert item)
    {keys keys' : List γ} (perm : keys.Perm keys') {items : List α} {items' : List β}
    (aligned : List.Forall₂ left keys items) (aligned' : List.Forall₂ right keys' items') :
    (items.map convert).Perm items' := by
  obtain ⟨between, aligned', arranged⟩ := List.perm_comp_forall₂ perm aligned'
  suffices between = items.map convert from this ▸ arranged
  clear perm arranged
  induction aligned generalizing between with
  | nil =>
      cases aligned'
      rfl
  | cons first rest ih =>
      cases aligned' with
      | cons first' rest' => rw [List.map_cons, same _ _ _ first first', ih _ rest']

end Lists

section Pieces

/-- Functions are lowered from pieces, one after the other. -/
inductive Piece.AllLowered (signature? : Bytes → Option Signature) :
    State → List Piece → List Function → State → Prop where
  /-- Nothing is left. -/
  | nil {state : State} : AllLowered signature? state [] [] state
  /-- One piece is lowered and then the others. -/
  | cons {state middle last : State} {piece : Piece} {pieces : List Piece} {function : Function}
      {functions : List Function} (first : piece.Lowered signature? state function middle)
      (rest : AllLowered signature? middle pieces functions last) :
      AllLowered signature? state (piece :: pieces) (function :: functions) last

namespace Piece.AllLowered

variable {pieces pieces' : List Piece} {functions functions' : List Function}

section One

variable (all : Piece.AllLowered signature? state pieces functions last)
include all

theorem strings_enlarge : Enlarges state.strings last.strings := by
  induction all with
  | nil => rfl
  | cons first rest ih => exact first.strings_extend.trans ih

theorem externals_subset : ∀ external ∈ state.externals, external ∈ last.externals := by
  induction all with
  | nil => exact fun _ member => member
  | cons first rest ih =>
      obtain ⟨_, lowers⟩ := first.lowers
      exact fun external member => ih external (lowers.externals_subset external member)

/-- Each function is lowered from a piece, and what it refers to is still there at the end. -/
theorem aligned : List.Forall₂ (fun piece function => ∃ before after : State,
    piece.Lowered signature? before function after ∧ after.strings <+: last.strings ∧
      ∀ external ∈ after.externals, external ∈ last.externals) pieces functions := by
  induction all with
  | nil => exact .nil
  | cons first rest ih =>
      exact .cons ⟨_, _, first, rest.strings_enlarge.isPrefix, rest.externals_subset⟩ ih

/-- Each piece is lowered. -/
theorem lowered {piece : Piece} (member : piece ∈ pieces) : ∃ function, ∃ before after : State,
    piece.Lowered signature? before function after ∧ after.strings <+: last.strings ∧
      ∀ external ∈ after.externals, external ∈ last.externals := by
  have aligned := all.aligned
  clear all
  induction aligned with
  | nil => cases member
  | cons first rest ih =>
      rcases List.mem_cons.mp member with rfl | later
      · exact ⟨_, first⟩
      · exact ih later

/-- What is new in some table was added with some piece. -/
theorem added {α : Type} (table : State → List α) {item : α} (new : item ∉ table state)
    (there : item ∈ table last) : ∃ piece ∈ pieces, ∃ function, ∃ before after : State,
      piece.Lowered signature? before function after ∧ after.strings <+: last.strings ∧
        item ∉ table before ∧ item ∈ table after := by
  induction all with
  | nil => exact absurd there new
  | @cons _ middle _ piece _ _ _ first rest ih =>
      by_cases early : item ∈ table middle
      · exact ⟨piece, List.mem_cons_self, _, _, _, first, rest.strings_enlarge.isPrefix, new, early⟩
      · obtain ⟨other, member, later⟩ := ih early there
        exact ⟨other, List.mem_cons_of_mem _ member, later⟩

end One

section Both

variable (all : Piece.AllLowered signature? state pieces functions last)
  (all' : Piece.AllLowered signature? state' pieces' functions' last')
include all all'

/-- String constants of pieces that are lowered elsewhere are there, too. -/
theorem strings_subset (subset : pieces ⊆ pieces') (empty : state.strings = []) :
    ∀ text ∈ last.strings, text ∈ last'.strings := by
  intro text there
  obtain ⟨piece, member, _, before, after, lowered, fits, new, added⟩ :=
    all.added State.strings (by simp [empty]) there
  obtain ⟨_, before', after', lowered', fits', -⟩ := all'.lowered (subset member)
  have alike := piece.lowered_alike lowered lowered' fits fits'
  exact fits'.subset ((alike.strings.left text added).resolve_left new)

/-- So are declarations. -/
theorem externals_mem (subset : pieces ⊆ pieces') (empty : state.externals = []) :
    ∀ external ∈ last.externals, external ∈ last'.externals := by
  intro external there
  obtain ⟨piece, member, _, before, after, lowered, fits, new, added⟩ :=
    all.added State.externals (by simp [empty]) there
  obtain ⟨_, before', after', lowered', fits', kept⟩ := all'.lowered (subset member)
  have alike := piece.lowered_alike lowered lowered' fits fits'
  exact kept external ((alike.externals.left external added).resolve_left new)

/-- In another order the functions are the same up to the places of string constants. -/
theorem functions_perm (perm : pieces.Perm pieces') :
    (functions.map (Function.relocated (newPlace last.strings last'.strings))).Perm functions' := by
  refine perm_of_aligned ?_ perm all.aligned all'.aligned
  rintro piece function function' ⟨_, _, lowered, fits, -⟩ ⟨_, _, lowered', fits', -⟩
  exact (piece.lowered_alike lowered lowered' fits fits').function_eq

end Both

end Piece.AllLowered

end Pieces

section Programs

/-- The pieces of a program.  The statements at top level go with the program's own entry function
if there is one, and are a function of their own otherwise. -/
def pieces (options : EntryOptions) (stem : Bytes) (program : Program) : List Piece :=
  if program.functions.any (isEntry options) then
    program.functions.map fun declaration =>
      .own (if isEntry options declaration then program.statements else []) (headOf declaration)
  else
    .topLevel (synthesizedEntry stem) program.statements ::
      program.functions.map fun declaration => .own [] (headOf declaration)

/-- The name of the entry function of a program. -/
def entryOf (options : EntryOptions) (stem : Bytes) (program : Program) : Bytes :=
  if program.functions.any (isEntry options) then options.entryName else synthesizedEntry stem

/-- A declaration says all about the function before its body is lowered. -/
theorem Declared.Header.eq_headOf {declared : Declared} {params : List (Bytes × BasicType)}
    {result : BasicType} (header : declared.Header params result) :
    declared = headOf declared.declaration := by
  have named : params =
      declared.declaration.params.map fun param => (param.name.name, namedType param.type) := by
    have aligned := header.aligned
    clear header
    generalize declared.declaration.params = written at aligned
    induction aligned with
    | nil => rfl
    | cons first rest ih =>
        rw [List.map_cons, ← ih, namedType, first.2.1, ← first.1]
        rfl
  have isResult : result = (Statics.signature declared.declaration).result := by
    have known := header.named
    rw [Statics.signature]
    cases given : declared.declaration.result with
    | none =>
        rw [given] at known
        exact (Option.some.inj known).symm
    | some identifier =>
        rw [given] at known
        simp only [Option.map_some, Option.getD_some] at known ⊢
        rw [namedType, known, Option.getD_some]
  obtain ⟨declaration, function⟩ := declared
  have made := header.function_eq
  rw [named, isResult] at made
  exact congrArg (Declared.mk declaration) made

/-- How the module of a program is put together from its pieces. -/
structure Assembles (options : EntryOptions) (stem : Bytes) (program : Program) (module : Module)
    (start last : State) : Prop where
  /-- All pieces are lowered. -/
  lowered : Piece.AllLowered (signatures (program.functions.map headOf)) start
    (pieces options stem program) module.functions last
  /-- At first there are no string constants. -/
  strings_nil : start.strings = []
  /-- At first nothing is declared. -/
  externals_nil : start.externals = []
  /-- The string constants are those of the last state. -/
  strings_eq : module.strings = last.strings
  /-- The declarations are those of the last state. -/
  externals_eq : module.externals = last.externals
  /-- The names of functions are different. -/
  distinct : (program.functions.map fun declaration => declaration.name.name).Nodup
  /-- The entry function is the chosen one. -/
  entry_eq : module.entry = entryOf options stem program

/-- Bodies are lowered one after the other, behind the statements at top level where they belong. -/
theorem lowerBodies_assembles {items : List Declared} {functions : List Function}
    {isEntry : Declared → Bool} {topLevel : Nat} {statements : List Stmt}
    (headers : ∀ item ∈ items, ∃ params result, item.Header params result)
    (written : ∀ item ∈ items, Stmt.AllWritten item.declaration.body)
    (statementsWritten : Stmt.AllWritten statements)
    (single : items.Pairwise fun first second => isEntry first = true → isEntry second = false)
    (idle : state.Idle) (plainRoot : state.Plain signature? ScopeTable.root)
    (plainTop : (∃ item ∈ items, isEntry item = true) → state.Plain signature? topLevel)
    (nested : 0 < topLevel)
    (run : (items.mapM fun item => if isEntry item then lowerFunction topLevel statements item
      else lowerFunction ScopeTable.root [] item) state = .ok (functions, last)) :
    Piece.AllLowered signature? state
      (items.map fun item => .own (if isEntry item then statements else []) item) functions
        last := by
  induction items generalizing state functions with
  | nil =>
      obtain ⟨rfl, rfl⟩ := Prod.mk.inj (mapM_nil_ok.mp run)
      exact .nil
  | cons item rest ih =>
      obtain ⟨function, middle, others, _, one, later, same⟩ := mapM_cons_ok.mp run
      obtain ⟨rfl, rfl⟩ := Prod.mk.inj same
      obtain ⟨alone, single⟩ := List.pairwise_cons.mp single
      have top : isEntry item = true → state.Plain signature? topLevel := fun entry =>
        plainTop ⟨item, List.mem_cons_self, entry⟩
      obtain ⟨-, idle', plainRoot', keepsTop, -⟩ :=
        lowerBody_lowers (headers item List.mem_cons_self) (written item List.mem_cons_self)
          statementsWritten idle plainRoot top nested one
      have topLater : (∃ item ∈ rest, isEntry item = true) → middle.Plain signature? topLevel := by
        rintro ⟨other, member, entry⟩
        have notFirst : isEntry item = false := by
          by_contra isFirst
          have never := alone other member (Bool.eq_true_of_not_eq_false isFirst)
          rw [entry] at never
          cases never
        exact keepsTop notFirst (plainTop ⟨other, List.mem_cons_of_mem _ member, entry⟩)
      have all := ih (fun item member => headers item (List.mem_cons_of_mem _ member))
        (fun item member => written item (List.mem_cons_of_mem _ member)) single idle' plainRoot'
        topLater later
      obtain ⟨params, result, header⟩ := headers item List.mem_cons_self
      have bodyWritten := written item List.mem_cons_self
      refine .cons ?_ all
      dsimp only
      cases entry : isEntry item with
      | true =>
          rw [entry, if_pos rfl] at one
          exact .own header idle (top entry) statementsWritten bodyWritten one
      | false =>
          rw [entry, if_neg (by decide)] at one
          exact .own header idle plainRoot trivial bodyWritten one

/-- **A module is assembled from the pieces of its program.** -/
theorem lowerItems_assembles {start : State} {entry : Bytes} {functions : List Function}
    (written : program.Written) (declaring : Declaring start start [])
    (noText : start.strings = []) (undeclared : start.externals = [])
    (run : lowerItems options stem program start = .ok ((entry, functions), last)) :
    ∃ opened, Assembles options stem program
      { name := stem, functions, externals := last.externals, strings := last.strings, entry }
      opened last := by
  obtain ⟨items, middle, declares, choice⟩ := lowerItems_ok run
  obtain ⟨declaring, declarations⟩ := declaring.declareAll declares
  rw [List.nil_append] at declaring
  have idle := declaring.idle undeclared
  have plainRoot := declaring.plain (.inl rfl)
  have plainTop := declaring.plain (.inr rfl)
  have bodies : ∀ item ∈ items, Stmt.AllWritten item.declaration.body := fun item member =>
    written.bodies _ (declarations ▸ List.mem_map_of_mem member)
  have nested : 0 < middle.nextContext := declaring.root_lt
  have heads : items = program.functions.map headOf := by
    rw [← declarations, List.map_map]
    conv_lhs => rw [← List.map_id items]
    refine List.map_congr_left fun item member => ?_
    obtain ⟨_, _, header⟩ := declaring.headers item member
    exact header.eq_headOf
  have distinct : (program.functions.map fun declaration => declaration.name.name).Nodup := by
    rw [← declarations, List.map_map]
    exact declaring.names
  have anyEntry : program.functions.any (isEntry options) =
      items.any fun item => isEntry options item.declaration := by
    rw [← declarations, List.any_map]
    rfl
  have opened : middle.openTopLevel.strings = [] := by
    obtain ⟨table, rfl⟩ := declaring.state_eq
    exact noText
  refine ⟨middle.openTopLevel, ?_, opened, declaring.externals_eq undeclared, rfl, rfl,
    distinct, ?_⟩
  · rw [pieces, anyEntry, ← heads]
    rcases choice with ⟨own, rfl, bodiesRun⟩ | ⟨own, rfl, free, first, others, between, entryRun,
      bodiesRun, rfl⟩
    · have all :=
        @lowerBodies_assembles _ _ _ _ _ (fun item => isEntry options item.declaration) _ _
        declaring.headers bodies written.statements (declaring.single options) idle plainRoot
        (fun _ => plainTop) nested bodiesRun
      rw [if_pos own]
      rw [heads, List.map_map] at all
      exact heads ▸ all
    · obtain ⟨_, _, -, -, makes, rfl, rfl⟩ :=
        lowerTopLevel_makes idle plainTop written.statements entryRun
      have all := @lowerBodies_assembles _ _ _ _ _ (fun _ => false) middle.nextContext _
        declaring.headers bodies written.statements
        (List.pairwise_of_forall fun _ _ never => absurd never (by decide)) makes.idle
        (makes.plain nested plainRoot) (fun never => by simp at never) nested
          (by simpa using bodiesRun)
      rw [if_neg (by rw [own]; decide)]
      refine .cons (.topLevel idle plainTop written.statements entryRun) ?_
      rw [heads, List.map_map] at all
      exact heads ▸ all
  · rw [entryOf, anyEntry]
    rcases choice with ⟨own, rfl, -⟩ | ⟨own, rfl, -⟩
    · rw [if_pos own]
    · rw [if_neg (by rw [own]; decide)]

end Programs

end ScriptCompiler.Lowering
