import ScriptCompiler.Proofs.Semantics.Machine

/-!
# Runs under two bounds

The run of a function depends on a bound for the depth of calls and on a bound for the number of
blocks.  One such run leads to another one when it goes on like it, perhaps at the cost of some
depth or some blocks.  Bounded runs meet a run of the source when they lead to what the result of
that run asks for, trap where it traps, and have no end within some bounds where it has none.
-/

namespace ScriptCompiler.Semantics

variable {Double α β : Type}

/-- How a call goes, by the depth of calls and the number of blocks that are allowed. -/
abbrev Bounded (Double : Type) := Nat → Nat → Run Double (Option (Datum Double) × Trace Double)

namespace Bounded

variable {first second third : Bounded Double}

/-- The run that needs no bound. -/
def const (run : Run Double (Option (Datum Double) × Trace Double)) : Bounded Double :=
  fun _ _ => run

/-- Larger bounds finish what smaller ones finish. -/
def Grows (run : Bounded Double) : Prop :=
  ∀ {depth depth' blocks blocks' : Nat}, depth ≤ depth' → blocks ≤ blocks' →
    (run depth blocks).Below (run depth' blocks')

theorem grows_const (run : Run Double (Option (Datum Double) × Trace Double)) : (const run).Grows :=
  fun _ _ => .refl run

/-- One run goes on like another one, and needs no smaller bounds for it. -/
structure Leads (first second : Bounded Double) : Prop where
  /-- What it comes to the other one comes to. -/
  below : ∀ depth blocks, (first depth blocks).Below (second depth blocks)
  /-- What the other one comes to it comes to. -/
  reached : ∀ depth blocks, ∃ depth' blocks', (second depth blocks).Below (first depth' blocks')

namespace Leads

@[refl]
theorem refl (run : Bounded Double) : run.Leads run :=
  ⟨fun _ _ => .refl _, fun depth blocks => ⟨depth, blocks, .refl _⟩⟩

theorem of_eq (same : first = second) : first.Leads second := same ▸ refl first

theorem trans (left : first.Leads second) (right : second.Leads third) : first.Leads third where
  below := fun depth blocks => (left.below depth blocks).trans (right.below depth blocks)
  reached := by
    intro depth blocks
    obtain ⟨depth', blocks', later⟩ := right.reached depth blocks
    obtain ⟨depth'', blocks'', earlier⟩ := left.reached depth' blocks'
    exact ⟨depth'', blocks'', later.trans earlier⟩

/-- A run that spends a block before it goes on. -/
theorem of_spent (spends : ∀ depth blocks, first depth (blocks + 1) = second depth blocks)
    (none : ∀ depth, first depth 0 = .unfinished) (grows : second.Grows) : first.Leads second where
  below := by
    intro depth blocks
    cases blocks with
    | zero => exact .inl (none depth)
    | succ blocks =>
        rw [spends]
        exact grows (Nat.le_refl _) (Nat.le_succ _)
  reached := fun depth blocks => ⟨depth, blocks + 1, .of_eq (spends depth blocks).symm⟩

/-- A run that leads to an end comes to it. -/
theorem exists_eq {run : Run Double (Option (Datum Double) × Trace Double)}
    (leads : first.Leads (const run)) (ended : run ≠ .unfinished) :
    ∃ depth blocks, first depth blocks = run := by
  obtain ⟨depth, blocks, below⟩ := leads.reached 0 0
  exact ⟨depth, blocks, below.eq_of_ended ended⟩

/-- A run that leads to a result leads on to what is done with it. -/
theorem bind {result : Option (Datum Double) × Trace Double}
    (leads : first.Leads (const (.done result)))
    (grows : first.Grows) {next : Option (Datum Double) × Trace Double → Bounded Double}
    (growing : (next result).Grows) :
    Leads (fun depth blocks => (first depth blocks).bind fun value => next value depth blocks)
      (next result) where
  below := by
    intro depth blocks
    exact (leads.below depth blocks).bind fun value => .refl (next value depth blocks)
  reached := by
    intro depth blocks
    obtain ⟨depth', blocks', isDone⟩ := leads.exists_eq nofun
    refine ⟨max depth depth', max blocks blocks', ?_⟩
    have later := grows (Nat.le_max_right depth depth') (Nat.le_max_right blocks blocks')
    rw [isDone] at later
    rw [later.eq_of_ended nofun]
    exact growing (Nat.le_max_left _ _) (Nat.le_max_left _ _)

/-- One bound for both: a run that allows as many blocks as it allows calls comes to what the run
comes to. -/
theorem diagonal {run : Run Double (Option (Datum Double) × Trace Double)}
    (leads : first.Leads (const run)) (ended : run ≠ .unfinished) (grows : first.Grows)
    (spends : ∀ depth blocks, second (depth + 1) blocks = first depth depth)
    (none : ∀ blocks, second 0 blocks = .unfinished) : second.Leads (const run) where
  below := by
    intro depth blocks
    cases depth with
    | zero => exact .inl (none blocks)
    | succ depth =>
        rw [spends]
        exact leads.below depth depth
  reached := by
    intro _ _
    obtain ⟨depth, blocks, isRun⟩ := leads.exists_eq ended
    refine ⟨max depth blocks + 1, 0, .of_eq ?_⟩
    have later := grows (Nat.le_max_left depth blocks) (Nat.le_max_right depth blocks)
    rw [isRun] at later
    rw [spends, later.eq_of_ended ended, const]

/-- A run that leads to a trap still leads there when something is done behind it. -/
theorem bind_trapped {trace : Trace Double} (leads : first.Leads (const (.trapped trace)))
    {next : Option (Datum Double) × Trace Double → Bounded Double} :
    Leads (fun depth blocks => (first depth blocks).bind fun value => next value depth blocks)
      (const (.trapped trace)) where
  below := fun depth blocks => by
    rcases leads.below depth blocks with unfinished | trapped
    · exact .inl (by rw [unfinished, Run.bind_unfinished])
    · exact .inr (by rw [trapped]; rfl)
  reached := by
    intro depth blocks
    obtain ⟨depth', blocks', isTrapped⟩ := leads.exists_eq nofun
    exact ⟨depth', blocks', .of_eq (by rw [isTrapped]; rfl)⟩

end Leads

end Bounded

open Bounded

/-- Bounded runs meet a run of the source: they lead to something that its result asks for, or to
its trap, and are unfinished within the bounds when it is. -/
def Meets (depth blocks : Nat) (run : Run Double α) (goal : Bounded Double)
    (asked : α → Bounded Double → Prop) : Prop :=
  match run with
  | .done result => ∃ onward, goal.Leads onward ∧ asked result onward
  | .trapped trace => goal.Leads (const (.trapped trace))
  | .stuck => False
  | .unfinished => ∀ depth' ≤ depth, ∀ blocks' ≤ blocks, goal depth' blocks' = .unfinished

namespace Meets

variable {depth blocks : Nat} {run : Run Double α} {goal goal' : Bounded Double}
  {asked : α → Bounded Double → Prop} {asked' : β → Bounded Double → Prop}

theorem done {result : α} (shown : asked result goal) :
    Meets depth blocks (.done result) goal asked :=
  ⟨goal, .refl goal, shown⟩

/-- A way to a run that meets the source meets it, too. -/
theorem lead (leads : goal.Leads goal') (meets : Meets depth blocks run goal' asked) :
    Meets depth blocks run goal asked := by
  cases run with
  | done result =>
      obtain ⟨onward, later, shown⟩ := meets
      exact ⟨onward, leads.trans later, shown⟩
  | trapped trace => exact leads.trans meets
  | stuck => exact meets
  | unfinished =>
      intro depth' shallower blocks' fewer
      have below := leads.below depth' blocks'
      rw [meets depth' shallower blocks' fewer] at below
      exact below.eq_unfinished

/-- A run that spends a block before it goes on meets the source with one block more. -/
theorem spend (spends : ∀ depth blocks, goal depth (blocks + 1) = goal' depth blocks)
    (none : ∀ depth, goal depth 0 = .unfinished) (grows : goal'.Grows)
    (meets : Meets depth blocks run goal' asked) : Meets depth (blocks + 1) run goal asked := by
  cases run with
  | unfinished =>
      intro depth' shallower blocks' fewer
      cases blocks' with
      | zero => exact none depth'
      | succ blocks' =>
          rw [spends]
          exact meets depth' shallower blocks' (Nat.le_of_succ_le_succ fewer)
  | done result => exact lead (.of_spent spends none grows) meets
  | trapped trace => exact lead (.of_spent spends none grows) meets
  | stuck => exact meets

/-- What meets the source within some blocks meets it within fewer. -/
theorem within {fewer : Nat} (less : fewer ≤ blocks) (meets : Meets depth blocks run goal asked) :
    Meets depth fewer run goal asked := by
  cases run with
  | unfinished =>
      exact fun depth' shallower blocks' le => meets depth' shallower blocks' (Nat.le_trans le less)
  | done result => exact meets
  | trapped trace => exact meets
  | stuck => exact meets

theorem bind {next : α → Run Double β} (meets : Meets depth blocks run goal asked)
    (later : ∀ result onward, asked result onward →
      Meets depth blocks (next result) onward asked') :
    Meets depth blocks (run.bind next) goal asked' := by
  cases run with
  | done result =>
      obtain ⟨onward, leads, shown⟩ := meets
      exact lead leads (later result onward shown)
  | trapped trace => exact meets
  | stuck => exact meets
  | unfinished => exact meets

theorem imp {asked' : α → Bounded Double → Prop} (meets : Meets depth blocks run goal asked)
    (weaker : ∀ result onward, asked result onward → asked' result onward) :
    Meets depth blocks run goal asked' := by
  cases run with
  | done result =>
      obtain ⟨onward, leads, shown⟩ := meets
      exact ⟨onward, leads, weaker result onward shown⟩
  | trapped trace => exact meets
  | stuck => exact meets
  | unfinished => exact meets

/-- What meets the source meets it, too, if every result leads on to what is asked. -/
theorem reach {asked' : α → Bounded Double → Prop} (meets : Meets depth blocks run goal asked)
    (onwards : ∀ result onward, asked result onward →
      ∃ onward', onward.Leads onward' ∧ asked' result onward') :
    Meets depth blocks run goal asked' := by
  cases run with
  | done result =>
      obtain ⟨onward, leads, shown⟩ := meets
      obtain ⟨onward', later, shown'⟩ := onwards result onward shown
      exact ⟨onward', leads.trans later, shown'⟩
  | trapped trace => exact meets
  | stuck => exact meets
  | unfinished => exact meets

/-- A call that meets a call of the source, and what is done with its result. -/
theorem call {run : Run Double (Option (Datum Double) × Trace Double)}
    {fine : Option (Datum Double) → Prop} (meets : Meets depth blocks run goal fun result onward =>
      onward = const (.done result) ∧ fine result.1)
    (grows : goal.Grows) {next : Option (Datum Double) × Trace Double → Run Double β}
    {onward : Option (Datum Double) × Trace Double → Bounded Double}
    (growing : ∀ result, (onward result).Grows)
    (later : ∀ result, fine result.1 → Meets depth blocks (next result) (onward result) asked') :
    Meets depth blocks (run.bind next)
      (fun depth blocks => (goal depth blocks).bind fun result => onward result depth blocks)
        asked' := by
  cases run with
  | done result =>
      obtain ⟨_, leads, rfl, isFine⟩ := meets
      exact lead (leads.bind grows (growing result)) (later result isFine)
  | trapped trace => exact Leads.bind_trapped meets
  | stuck => exact meets
  | unfinished =>
      intro depth' shallower blocks' fewer
      dsimp only
      rw [meets depth' shallower blocks' fewer, Run.bind_unfinished]

section Calls

variable {run : Run Double (Option (Datum Double) × Trace Double)}
    {fine : Option (Datum Double) → Prop}

/-- A call meets a call of the source when what is called meets it with a call less. -/
theorem diagonal (meets : Meets depth depth run goal fun result onward =>
      onward = const (.done result) ∧ fine result.1) (grows : goal.Grows)
    (spends : ∀ depth blocks, goal' (depth + 1) blocks = goal depth depth)
    (none : ∀ blocks, goal' 0 blocks = .unfinished) :
    Meets (depth + 1) (depth + 1) run goal' fun result onward =>
      onward = const (.done result) ∧ fine result.1 := by
  cases run with
  | done result =>
      obtain ⟨_, leads, rfl, isFine⟩ := meets
      exact ⟨_, leads.diagonal nofun grows spends none, rfl, isFine⟩
  | trapped trace =>
      have leads : goal.Leads (const (.trapped trace)) := meets
      exact leads.diagonal nofun grows spends none
  | stuck => exact meets
  | unfinished =>
      intro depth' shallower blocks' _
      cases depth' with
      | zero => exact none blocks'
      | succ depth' =>
          rw [spends]
          have fewer := Nat.le_of_succ_le_succ shallower
          exact meets depth' fewer depth' fewer

/-- What meets a run of the source ends as it does, and is unfinished within the bounds only when it
is. -/
theorem eq_of_ended {ending : Run Double (Option (Datum Double) × Trace Double)}
    (meets : Meets depth blocks run goal fun result onward =>
      onward = const (.done result) ∧ fine result.1) (within : goal depth blocks = ending)
    (ended : ending ≠ .unfinished) : run = ending := by
  cases run with
  | done result =>
      obtain ⟨_, leads, rfl, -⟩ := meets
      exact (within ▸ leads.below depth blocks).eq_of_ended ended
  | trapped trace =>
      have leads : goal.Leads (const (.trapped trace)) := meets
      exact (within ▸ leads.below depth blocks).eq_of_ended ended
  | stuck => exact meets.elim
  | unfinished =>
      exact absurd (within.symm.trans (meets depth (Nat.le_refl _) blocks (Nat.le_refl _))) ended

/-- A run of the source that has ended is what meets it comes to. -/
theorem exists_eq (meets : Meets depth blocks run goal fun result onward =>
      onward = const (.done result) ∧ fine result.1) (ended : run ≠ .unfinished) :
    ∃ depth' blocks', goal depth' blocks' = run := by
  cases run with
  | done result =>
      obtain ⟨_, leads, rfl, -⟩ := meets
      exact leads.exists_eq ended
  | trapped trace => exact Leads.exists_eq meets ended
  | stuck => exact meets.elim
  | unfinished => exact absurd rfl ended

end Calls

end Meets

end ScriptCompiler.Semantics
