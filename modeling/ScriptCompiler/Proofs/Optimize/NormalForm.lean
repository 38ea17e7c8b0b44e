import Mathlib.Data.List.Flatten
import Mathlib.Logic.Relation
import ScriptCompiler.Proofs.Optimize.ControlFlow
import ScriptCompiler.Proofs.Optimize.Settling

/-!
# One round of the optimizer is enough

What is settled stays so when instructions are deleted, since only their order counts.  A sweep of
dead code elimination that finds something makes the function smaller, so the sweeps come to an end,
and where they end the next one finds nothing (`Function.Swept`).  So a function is in normal form
after the first round, and the second round, which finds nothing, is the last one
(`Function.optimize_isNormal`).  That every instruction stands once and defines no constant is
needed, as it is to be more than declared (`Function.optimize_repeats`).
-/

namespace ScriptCompiler.IR.Shared

namespace Function

variable {function : Function}

/-! ### Sweeps -/

theorem mem_successorsOf {source target : Nat} :
    target ∈ function.successorsOf source ↔ (source, target) ∈ function.successors := by
  rw [successorsOf, ends, List.mem_filterMap]
  constructor
  · rintro ⟨⟨first, second⟩, member, same⟩
    split at same
    · rename_i isSource
      cases same
      exact isSource ▸ member
    · cases same
  · exact fun member => ⟨_, member, if_pos rfl⟩

/-- The search finds the blocks that the edges lead to. -/
theorem mem_reachable_iff {block : Nat} :
    block ∈ function.reachable ↔ Relation.ReflTransGen
      (fun source target => (source, target) ∈ function.successors) entry block := by
  have sources : ∀ source, function.successorsOf source ≠ [] →
      source ∈ function.successors.map Prod.fst := by
    intro source some
    obtain ⟨target, edge⟩ := List.exists_mem_of_ne_nil _ some
    exact List.mem_map_of_mem (mem_successorsOf.mp edge)
  rw [reachable, Search.mem_within_iff _ sources (by simp)]
  simp only [mem_successorsOf]

/-- Removing the edges out of blocks changes neither instructions nor blocks. -/
theorem detach_eq (dead : List Nat) (function : Function) :
    ∃ successors predecessors,
      dead.foldl detach function = { function with successors, predecessors } := by
  induction dead generalizing function with
  | nil => exact ⟨function.successors, function.predecessors, rfl⟩
  | cons block rest ih =>
      obtain ⟨successors, predecessors, same⟩ := function.removeEdges_eq
        ((function.successorsOf block).map fun target => (block, target))
      rw [List.foldl_cons, detach, same]
      exact ih _

/-- A function with the same constants of which instructions may be left out. -/
structure Trims (function trimmed : Function) : Prop where
  /-- The instructions that are left stand in the same order. -/
  listing : trimmed.listing.Sublist function.listing
  /-- Constants hold what they held. -/
  constants : trimmed.constants = function.constants
  /-- A function that is only declared stays so. -/
  external : trimmed.external = function.external

theorem Trims.refl (function : Function) : function.Trims function :=
  ⟨List.Sublist.refl _, rfl, rfl⟩

theorem Trims.trans {other last : Function} (first : function.Trims other)
    (second : other.Trims last) : function.Trims last :=
  ⟨second.listing.trans first.listing, second.constants.trans first.constants,
    second.external.trans first.external⟩

/-- Either all blocks are found by the search and stay, or one is dropped. -/
theorem dropUnreachable_spec (function : Function) :
    function.dropUnreachable = (function, false) ∧
        (∀ block ∈ function.blocks, block ∈ function.reachable) ∨
      function.dropUnreachable.2 = true ∧
        function.dropUnreachable.1.blocks.length < function.blocks.length ∧
        function.Trims function.dropUnreachable.1 := by
  unfold dropUnreachable
  dsimp only
  split
  · rename_i none
    rw [List.isEmpty_iff, List.filter_eq_nil_iff] at none
    exact .inl ⟨rfl, fun block member => by simpa using none block member⟩
  · rename_i some
    rw [List.isEmpty_iff, List.filter_eq_nil_iff] at some
    push Not at some
    obtain ⟨block, member, dead⟩ := some
    obtain ⟨successors, predecessors, same⟩ := detach_eq
      (function.blocks.filter fun block => !function.reachable.contains block) function
    rw [same]
    refine .inr ⟨rfl, ?_, List.filter_sublist.flatMap _, rfl, rfl⟩
    exact List.length_filter_lt_length_iff_exists.mpr ⟨block, member, by simpa using dead⟩

theorem listing_keepNodes (function : Function) (keep : Node → Bool) :
    (function.keepNodes keep).1.listing = function.listing.filter keep := by
  rw [listing, listing, List.filter_flatMap]
  refine List.flatMap_congr fun block member => ?_
  have isBlock : function.blocks.contains block = true := List.contains_iff_mem.mpr member
  dsimp only [keepNodes]
  rw [if_pos isBlock, List.filter_map]
  rfl

theorem keepNodes_eq_self {keep : Node → Bool} (none : (function.keepNodes keep).2 = false) :
    (function.keepNodes keep).1 = function ∧ ∀ node ∈ function.listing, keep node = true := by
  have all : ∀ node ∈ function.listing, keep node = true := by
    intro node member
    simpa using List.any_eq_false.mp none node member
  refine ⟨?_, all⟩
  have same : (function.keepNodes keep).1.code = function.code := by
    funext block
    dsimp only [keepNodes]
    split
    · rename_i isBlock
      refine List.filter_eq_self.mpr fun place inside => all _ ?_
      exact List.mem_flatMap.mpr
        ⟨block, List.contains_iff_mem.mp isBlock, List.mem_map_of_mem inside⟩
    · rfl
  change { function with code := (function.keepNodes keep).1.code } = function
  rw [same]

theorem size_keepNodes (function : Function) (keep : Node → Bool) :
    (function.keepNodes keep).1.size ≤ function.size ∧
      ((function.keepNodes keep).2 = true → (function.keepNodes keep).1.size < function.size) := by
  have blocks : (function.keepNodes keep).1.blocks = function.blocks := rfl
  rw [size, size, blocks, listing_keepNodes]
  refine ⟨Nat.add_le_add_left (List.length_filter_le _ _) _, fun some => Nat.add_lt_add_left ?_ _⟩
  obtain ⟨node, member, dropped⟩ := List.any_eq_true.mp some
  exact List.length_filter_lt_length_iff_exists.mpr ⟨node, member, by simpa using dropped⟩

theorem keepNodes_trims (function : Function) (keep : Node → Bool) :
    function.Trims (function.keepNodes keep).1 :=
  ⟨function.listing_keepNodes keep ▸ List.filter_sublist, rfl, rfl⟩

/-- A sweep only takes instructions away. -/
theorem sweep_trims (function : Function) : function.Trims function.sweep.1 := by
  have blocks : function.Trims function.dropUnreachable.1 := by
    rcases function.dropUnreachable_spec with ⟨same, -⟩ | ⟨-, -, trims⟩
    · exact same ▸ .refl function
    · exact trims
  have stores : Trims _ function.dropUnreachable.1.dropDeadStores.1 := keepNodes_trims _ _
  have unused : Trims _ function.dropUnreachable.1.dropDeadStores.1.dropUnused.1 :=
    keepNodes_trims _ _
  exact (blocks.trans stores).trans unused

/-- A sweep that finds something makes the function smaller. -/
theorem size_sweep_lt (found : function.sweep.2 = true) :
    function.sweep.1.size < function.size := by
  have blocks : function.dropUnreachable.1.size ≤ function.size ∧
      (function.dropUnreachable.2 = true → function.dropUnreachable.1.size < function.size) := by
    rcases function.dropUnreachable_spec with ⟨same, -⟩ | ⟨-, fewer, trims⟩
    · simp [same]
    · have less := Nat.add_lt_add_of_lt_of_le fewer trims.listing.length_le
      exact ⟨Nat.le_of_lt less, fun _ => less⟩
  have stores : function.dropUnreachable.1.dropDeadStores.1.size ≤ _ ∧ _ :=
    function.dropUnreachable.1.size_keepNodes _
  have unused : function.dropUnreachable.1.dropDeadStores.1.dropUnused.1.size ≤ _ ∧ _ :=
    function.dropUnreachable.1.dropDeadStores.1.size_keepNodes _
  have which : (function.dropUnreachable.2 || function.dropUnreachable.1.dropDeadStores.2 ||
      function.dropUnreachable.1.dropDeadStores.1.dropUnused.2) = true := found
  change function.dropUnreachable.1.dropDeadStores.1.dropUnused.1.size < _
  rw [Bool.or_eq_true, Bool.or_eq_true] at which
  rcases which with (which | which) | which
  · exact Nat.lt_of_le_of_lt (Nat.le_trans unused.1 stores.1) (blocks.2 which)
  · exact Nat.lt_of_le_of_lt unused.1 (Nat.lt_of_lt_of_le (stores.2 which) blocks.1)
  · exact Nat.lt_of_lt_of_le (unused.2 which) (Nat.le_trans stores.1 blocks.1)

/-- A function in which a sweep finds nothing. -/
structure Swept (function : Function) : Prop where
  /-- Every block is found by the search. -/
  blocks : ∀ block ∈ function.blocks, block ∈ function.reachable
  /-- What is stored into is loaded. -/
  stores : ∀ address value, .store address value ∈ function.listing →
    ∃ source ∈ function.loaded, address.isSame source = true
  /-- What has no effect has a result that is read. -/
  results : ∀ node ∈ function.listing, node.hasEffect = false →
    ∃ name, node.result? = some name ∧
      ∃ operand ∈ function.used, (Operand.named name).isSame operand = true

/-- A sweep that finds nothing changes nothing. -/
theorem sweep_eq_self (none : function.sweep.2 = false) :
    function.sweep = (function, false) ∧ function.Swept := by
  have which : (function.dropUnreachable.2 || function.dropUnreachable.1.dropDeadStores.2 ||
      function.dropUnreachable.1.dropDeadStores.1.dropUnused.2) = false := none
  rw [Bool.or_eq_false_iff, Bool.or_eq_false_iff] at which
  obtain ⟨⟨noBlocks, noStores⟩, noResults⟩ := which
  rcases function.dropUnreachable_spec with ⟨same, blocks⟩ | ⟨some, -⟩
  · rw [same] at noStores noResults
    obtain ⟨sameStores, stores⟩ := keepNodes_eq_self noStores
    change (keepNodes function _).1.dropUnused.2 = false at noResults
    rw [sameStores] at noResults
    obtain ⟨sameResults, results⟩ := keepNodes_eq_self noResults
    refine ⟨Prod.ext ?_ none, blocks, fun address value member => ?_, fun node member pure => ?_⟩
    · change (function.dropUnreachable.1.dropDeadStores.1.dropUnused).1 = function
      rw [same]
      change (keepNodes function _).1.dropUnused.1 = function
      rw [sameStores]
      exact sameResults
    · simpa using stores _ member
    · have read := results node member
      rw [pure, Bool.false_or] at read
      cases isResult : node.result? with
      | none => simp [isResult] at read
      | some name => exact ⟨name, rfl, by simpa [isResult] using read⟩
  · rw [some] at noBlocks
    cases noBlocks

/-- What repeated sweeps make of a function: sweeps that find something, and one that does not. -/
inductive Sweeps : Function → Function → Prop where
  /-- Nothing is left to be found. -/
  | done {function : Function} : function.sweep = (function, false) → Sweeps function function
  /-- Something is found. -/
  | again {function last : Function} : function.sweep.2 = true → Sweeps function.sweep.1 last →
      Sweeps function last

/-- As many sweeps as there are blocks and instructions, and one more, come to an end. -/
theorem sweepWithin_sweeps {rounds : Nat} (enough : function.size < rounds) :
    Sweeps function (function.sweepWithin rounds).1 := by
  induction rounds generalizing function with
  | zero => cases enough
  | succ rounds ih =>
      rw [sweepWithin]
      dsimp only
      cases found : function.sweep.2 with
      | true =>
          have less := size_sweep_lt found
          exact .again found (ih (by omega))
      | false =>
          obtain ⟨same, -⟩ := sweep_eq_self found
          have whole : function.sweep.1 = function := congrArg Prod.fst same
          rw [if_neg Bool.false_ne_true, whole]
          exact .done same

theorem eliminateDeadCode_sweeps (function : Function) :
    Sweeps function function.eliminateDeadCode.1 :=
  sweepWithin_sweeps (Nat.lt_succ_self _)

theorem Sweeps.last {last : Function} (sweeps : Sweeps function last) :
    last.sweep = (last, false) ∧ function.Trims last := by
  induction sweeps with
  | done none => exact ⟨none, .refl _⟩
  | again _ _ ih => exact ⟨ih.1, (sweep_trims _).trans ih.2⟩

theorem eliminateDeadCode_of_sweep (none : function.sweep = (function, false)) :
    function.eliminateDeadCode = (function, false) := by
  rw [eliminateDeadCode, sweepWithin, none]
  rfl

/-! ### The normal form -/

/-- A function in which nothing is left to optimize. -/
structure IsNormal (function : Function) : Prop where
  /-- No operation on two values can be computed at once. -/
  binaries : ∀ opcode dest left right, .binary opcode dest left right ∈ function.listing →
    ∀ first second, left.constant? function.constants = some first →
      right.constant? function.constants = some second → opcode.onConstants? first second = none
  /-- No operation on one value can be computed at once. -/
  unaries : ∀ opcode dest operand, .unary opcode dest operand ∈ function.listing →
    ∀ content, operand.constant? function.constants = some content →
      opcode.onConstant? content = none
  /-- No branch is on a constant truth value. -/
  branches : ∀ condition ifTrue ifFalse, .branch condition ifTrue ifFalse ∈ function.listing →
    ∀ value, condition.constant? function.constants ≠ some (.bool value)
  /-- Edges lead from the entry to every block. -/
  blocks : ∀ block ∈ function.blocks, Relation.ReflTransGen
    (fun source target => (source, target) ∈ function.successors) entry block
  /-- What has no effect has a result that some instruction reads. -/
  results : ∀ node ∈ function.listing, node.hasEffect = false →
    ∃ name, node.result? = some name ∧
      ∃ reader ∈ function.listing, .named name ∈ reader.operands
  /-- What is stored into is loaded somewhere. -/
  stores : ∀ address value, .store address value ∈ function.listing →
    ∃ name dest, address = .named name ∧ .load dest (.named name) ∈ function.listing

theorem eq_of_isSame {operand other : Operand}
    (same : operand.isSame other = true) :
    ∃ name, operand = .named name ∧ other = .named name := by
  cases operand with
  | plain => cases same
  | named name =>
      cases other with
      | plain => cases same
      | named other => exact ⟨name, rfl, by rw [eq_of_beq (a := name) (b := other) same]⟩

theorem Swept.isNormal (swept : function.Swept)
    (settled : Settled function.constants function.listing) : function.IsNormal where
  binaries := by
    intro opcode dest left right member first second isFirst isSecond
    have final := settled.final _ member
    rw [Node.folded?, isFirst, isSecond] at final
    exact Option.map_eq_none_iff.mp final
  unaries := by
    intro opcode dest operand member content isContent
    have final := settled.final _ member
    rw [Node.folded?, isContent] at final
    exact Option.map_eq_none_iff.mp final
  branches := by
    intro condition ifTrue ifFalse member value isValue
    have final := settled.final _ member
    rw [Node.folded?, isValue] at final
    cases value <;> cases final
  blocks := fun block member => mem_reachable_iff.mp (swept.blocks block member)
  results := by
    intro node member pure
    obtain ⟨name, isResult, operand, read, same⟩ := swept.results node member pure
    obtain ⟨_, isName, rfl⟩ := eq_of_isSame same
    cases isName
    obtain ⟨reader, within, reads⟩ := List.mem_flatMap.mp read
    exact ⟨name, isResult, reader, within, reads⟩
  stores := by
    intro address value member
    obtain ⟨source, loads, same⟩ := swept.stores address value member
    obtain ⟨name, isAddress, rfl⟩ := eq_of_isSame same
    obtain ⟨node, within, isLoad⟩ := List.mem_filterMap.mp loads
    cases node with
    | load dest other =>
        cases isLoad
        exact ⟨name, dest, isAddress, within⟩
    | binary | unary | copy | alloca | store | call | jump | branch | ret => cases isLoad

/-- A function that both passes leave as it is. -/
structure Stable (function : Function) : Prop where
  /-- Folding changes nothing and reports no change. -/
  folded : function.foldConstants = (function, false)
  /-- Dead code elimination changes nothing and reports no change. -/
  cleared : function.eliminateDeadCode = (function, false)

/-- The function behind both passes. -/
def optimized (function : Function) : Function := function.foldConstants.1.eliminateDeadCode.1

/-- **Both passes once lead to the normal form, which they leave as it is.** -/
theorem Proper.optimized_isNormal (proper : function.Proper) :
    Sweeps function.foldConstants.1 function.optimized ∧ function.optimized.IsNormal ∧
      function.optimized.Stable := by
  have sweeps := function.foldConstants.1.eliminateDeadCode_sweeps
  obtain ⟨none, trims⟩ := sweeps.last
  have settled : Settled function.optimized.constants function.optimized.listing := by
    rw [optimized, trims.constants]
    exact proper.foldConstants_settled.sublist trims.listing
  exact ⟨sweeps, (sweep_eq_self (congrArg Prod.snd none)).2.isNormal settled,
    foldConstants_of_settled settled, eliminateDeadCode_of_sweep none⟩

/-! ### Rounds -/

/-- What a round reports. -/
def reported (function : Function) : Bool × Bool :=
  (function.foldConstants.2, function.foldConstants.1.eliminateDeadCode.2)

/-- What a round comes to. -/
theorem runRounds_succ (rounds : Nat) (function : Function) :
    function.runRounds (rounds + 1) =
      if function.reported.1 || function.reported.2 then
        ⟨(function.optimized.runRounds rounds).function,
          function.reported :: (function.optimized.runRounds rounds).reports⟩
      else ⟨function.optimized, [function.reported]⟩ := rfl

/-- However many rounds are allowed, a stable function stays as it is. -/
theorem Stable.runRounds (stable : function.Stable) (rounds : Nat) :
    function.runRounds (rounds + 1) = ⟨function, [(false, false)]⟩ := by
  have report : function.reported = (false, false) := by
    rw [reported, stable.folded, stable.cleared]
  have whole : function.optimized = function := by
    rw [optimized, stable.folded, stable.cleared]
  rw [runRounds_succ, report, whole]
  rfl

/-- Where one round leads to a stable function, a second one reports no change and is the last. -/
theorem runRounds_of_stable (stable : function.optimized.Stable) (rounds : Nat) :
    (function.runRounds (rounds + 1)).function = function.optimized ∧
      ((function.runRounds (rounds + 1)).reports = [function.reported] ∨
        (function.runRounds (rounds + 1)).reports = [function.reported, (false, false)]) ∧
      function.runRounds (rounds + 2) = function.runRounds 2 := by
  have twice : ∀ rounds, function.runRounds (rounds + 2) =
      if function.reported.1 || function.reported.2 then
        ⟨function.optimized, [function.reported, (false, false)]⟩
      else ⟨function.optimized, [function.reported]⟩ := by
    intro rounds
    rw [runRounds_succ, stable.runRounds]
  refine ⟨?_, ?_, (twice rounds).trans (twice 0).symm⟩
  · cases rounds with
    | zero =>
        rw [runRounds_succ]
        split <;> rfl
    | succ rounds =>
        rw [twice]
        split <;> rfl
  · cases rounds with
    | zero =>
        rw [runRounds_succ]
        split <;> exact .inl rfl
    | succ rounds =>
        rw [twice]
        split
        · exact .inr rfl
        · exact .inl rfl

theorem optimized_external (function : Function) :
    function.optimized.external = function.external := by
  obtain ⟨successors, predecessors, folded⟩ := function.foldConstants_eq
  rw [optimized, function.foldConstants.1.eliminateDeadCode_sweeps.last.2.external, folded]

/-- What is defined is optimized from the first level on. -/
theorem optimize_eq {level : Int} (positive : 0 < level) (defined : function.external = false)
    (maxRounds : Int) : function.optimize level maxRounds = function.runRounds maxRounds.toNat := by
  have notZero : ¬ level ≤ 0 := by omega
  simp [optimize, defined, notZero]

/-- **One round is enough.**  From the first level on, and where one round is allowed, the sweeps of
dead code elimination come to an end and leave a function in normal form.  Both passes leave that
function as it is and report no change, and so does the optimizer however many rounds it is allowed;
a second round reports no change, and a third round is never run. -/
theorem optimize_isNormal {level maxRounds : Int} (positive : 0 < level) (some : 0 < maxRounds)
    (defined : function.external = false) (proper : function.Proper) :
    let last := function.optimize level maxRounds
    function.foldConstants.1.Sweeps last.function ∧ last.function.IsNormal ∧
      last.function.foldConstants = (last.function, false) ∧
      last.function.eliminateDeadCode = (last.function, false) ∧
      (∀ again rounds : Int, 0 < again → 0 < rounds →
        last.function.optimize again rounds = ⟨last.function, [(false, false)]⟩) ∧
      last.reports.length ≤ 2 ∧ (∀ report ∈ last.reports.tail, report = (false, false)) ∧
      (1 < maxRounds → last = function.optimize level 2) := by
  obtain ⟨sweeps, normal, stable⟩ := proper.optimized_isNormal
  obtain ⟨rounds, isRounds⟩ : ∃ rounds, maxRounds.toNat = rounds + 1 :=
    Nat.exists_eq_succ_of_ne_zero (by omega)
  obtain ⟨isFunction, reports, -⟩ := runRounds_of_stable stable rounds
  rw [optimize_eq positive defined, optimize_eq positive defined, isRounds]
  dsimp only
  rw [isFunction]
  refine ⟨sweeps, normal, stable.folded, stable.cleared, ?_, ?_, ?_, ?_⟩
  · intro again allowed isPositive some
    obtain ⟨more, isMore⟩ : ∃ more, allowed.toNat = more + 1 :=
      Nat.exists_eq_succ_of_ne_zero (by omega)
    rw [optimize_eq isPositive (function.optimized_external.trans defined), isMore,
      stable.runRounds]
  · rcases reports with one | two
    · simp [one]
    · simp [two]
  · rcases reports with one | two
    · simp [one]
    · simp [two]
  · intro more
    obtain ⟨others, rfl⟩ : ∃ others, rounds = others + 1 :=
      Nat.exists_eq_succ_of_ne_zero (by omega)
    exact (runRounds_of_stable stable others).2.2

/-- A function that stores into a slot and loads from it where a comparison of constants never
leads, and that is left through a block outside it. -/
def neverLoading : Function where
  constants _ := .int 1
  cells number :=
    [.alloca (some ⟨.slot, 0⟩) .int, .store (.named ⟨.slot, 0⟩) (.named ⟨.constant, 0⟩),
      .binary .add (some ⟨.temporary, 2⟩) (.plain (some (.int 2))) (.plain (some (.int 3))),
      .binary .mul (some ⟨.temporary, 3⟩) (.named ⟨.temporary, 2⟩) (.plain (some (.int 4))),
      .binary .lt (some ⟨.temporary, 4⟩) (.named ⟨.temporary, 3⟩) (.named ⟨.temporary, 2⟩),
      .branch (.named ⟨.temporary, 4⟩) 1 3,
      .load (some ⟨.temporary, 5⟩) (.named ⟨.slot, 0⟩)].getD number (.ret none)
  code block :=
    [[.cell 0, .cell 1, .cell 2, .cell 3, .cell 4, .cell 5],
      [.cell 6, .own (.ret (some (.named ⟨.temporary, 5⟩)))],
      [.own (.copy none (.named ⟨.temporary, 3⟩)),
        .own (.ret (some (.named ⟨.temporary, 3⟩)))]].getD block []
  index block := block
  blocks := [0, 1, 2]
  successors := [(0, 1), (0, 3), (3, 2)]
  predecessors := [(1, 0), (3, 0), (2, 3)]

theorem optimize_isNormal_neverLoading :
    (0 : Int) < 2 ∧ (0 : Int) < 10 ∧ neverLoading.external = false ∧ neverLoading.Proper ∧
      (neverLoading.optimize 2 10).function.IsNormal ∧
      (neverLoading.optimize 2 10).function.blocks = [0, 2] ∧
      (neverLoading.optimize 2 10).function.listing.length = 2 ∧
      (neverLoading.optimize 2 10).reports = [(true, true), (false, false)] := by
  have proper : neverLoading.Proper := by
    refine ⟨by decide, by decide, ?_⟩
    rw [Folding.BlocksOnce]
    decide
  exact ⟨by decide, by decide, rfl, proper,
    (optimize_isNormal (by decide) (by decide) rfl proper).2.1, by decide +kernel,
    by decide +kernel, by decide +kernel⟩

/-- A function that copies a constant to itself and returns it. -/
def copyingItself : Function where
  constants _ := .int 5
  cells _ := .ret none
  code _ :=
    [.own (.copy (some ⟨.constant, 0⟩) (.named ⟨.constant, 0⟩)),
      .own (.ret (some (.named ⟨.constant, 0⟩)))]
  index block := block
  blocks := [0]
  successors := []
  predecessors := []

/-- A function in which one addition stands before a copy of a constant and behind it. -/
def addingTwice : Function where
  constants _ := .nothing
  cells _ := .binary .add (some ⟨.temporary, 2⟩) (.named ⟨.temporary, 1⟩) (.plain (some (.int 1)))
  code _ :=
    [.own (.call none ⟨.external, "g"⟩ [.named ⟨.temporary, 2⟩]), .cell 0,
      .own (.copy (some ⟨.temporary, 1⟩) (.plain (some (.int 5)))), .cell 0,
      .own (.ret (some (.named ⟨.temporary, 2⟩)))]
  index block := block
  blocks := [0]
  successors := []
  predecessors := []

/-- A function in which the entry stands twice. -/
def enteringTwice : Function where
  constants _ := .nothing
  cells _ := .ret none
  code _ :=
    [.own (.call none ⟨.external, "g"⟩ [.named ⟨.temporary, 2⟩]),
      .own (.copy (some ⟨.temporary, 2⟩) (.named ⟨.temporary, 1⟩)),
      .own (.copy (some ⟨.temporary, 1⟩) (.plain (some (.int 5))))]
  index block := block
  blocks := [0, 0]
  successors := []
  predecessors := []

/-- A function that is only declared. -/
def declared : Function where
  external := true
  constants _ := .nothing
  cells _ := .ret none
  code _ := []
  index block := block
  blocks := []
  successors := []
  predecessors := []

/-- None of the conditions can be left out.  Where a constant is a result, folding reports a change
in every round, and again behind the last one.  Where an instruction or a block stands twice, one
round leaves an addition of constants, or an operand that the next one replaces.  And no pass runs
on what is only declared, not even where it has code. -/
theorem optimize_repeats :
    (copyingItself.external = false ∧
        (copyingItself.optimize 1 10).reports = List.replicate 10 (true, false) ∧
        (copyingItself.optimize 1 10).function.foldConstants.2 = true) ∧
      (addingTwice.external = false ∧ ¬ (addingTwice.optimize 1 1).function.IsNormal) ∧
      (enteringTwice.external = false ∧
        (enteringTwice.optimize 1 1).function.foldConstants.2 = true) ∧
      (declared.optimize 1 10).reports = [] ∧
      ¬ ({ neverLoading with external := true }.optimize 1 10).function.IsNormal := by
  refine ⟨⟨rfl, by decide +kernel, by decide +kernel⟩, ⟨rfl, fun normal => ?_⟩,
    ⟨rfl, by decide +kernel⟩, rfl, fun normal => ?_⟩
  · have left : .binary .add (some ⟨.temporary, 2⟩) (.plain (some (.int 5)))
        (.plain (some (.int 1))) ∈ (addingTwice.optimize 1 1).function.listing :=
      List.mem_cons_of_mem _ List.mem_cons_self
    cases normal.binaries _ _ _ _ left _ _ rfl rfl
  · have left : .binary .add (some ⟨.temporary, 2⟩) (.plain (some (.int 2)))
        (.plain (some (.int 3))) ∈ neverLoading.listing :=
      List.mem_cons_of_mem _ (List.mem_cons_of_mem _ List.mem_cons_self)
    cases normal.binaries _ _ _ _ left _ _ rfl rfl

end Function

end ScriptCompiler.IR.Shared
