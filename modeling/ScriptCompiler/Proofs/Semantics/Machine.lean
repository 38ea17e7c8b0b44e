import ScriptCompiler.Ty

/-!
# Running programs

The values that programs compute with, the machine that they run on and the ways in which a run can
end.  Integers are words of 32 bits.  Floating-point arithmetic belongs to the machine: nothing is
assumed about it but that it is fixed.  Runs are bounded; a run that reaches its bound is
unfinished, and the order of runs says that a greater bound may only finish what was unfinished.
-/

namespace ScriptCompiler.Semantics

/-- A value of a running program. -/
inductive Datum (Double : Type) where
  /-- An integer. -/
  | int (value : BitVec 32)
  /-- A floating-point number. -/
  | float (value : Double)
  /-- A truth value. -/
  | bool (value : Bool)
  /-- A text. -/
  | string (value : Bytes)

/-- The type of a value. -/
def Datum.type {Double : Type} : Datum Double → BasicType
  | .int _ => .int
  | .float _ => .float
  | .bool _ => .bool
  | .string _ => .string

/-- What programs leave to the machine that runs them. -/
structure Machine (Double : Type) where
  /-- The machine's form of a floating-point constant. -/
  ofFloat : Float → Double
  /-- The sum of two floating-point numbers. -/
  add : Double → Double → Double
  /-- The difference of two floating-point numbers. -/
  sub : Double → Double → Double
  /-- The product of two floating-point numbers. -/
  mul : Double → Double → Double
  /-- The quotient of two floating-point numbers. -/
  div : Double → Double → Double
  /-- The remainder of two floating-point numbers. -/
  rem : Double → Double → Double
  /-- The negative of a floating-point number. -/
  neg : Double → Double
  /-- Whether two floating-point numbers are ordered and equal. -/
  eq : Double → Double → Bool
  /-- Whether two floating-point numbers are ordered and different. -/
  ne : Double → Double → Bool
  /-- Whether a floating-point number is less than another one. -/
  lt : Double → Double → Bool
  /-- Whether a floating-point number is at most another one. -/
  le : Double → Double → Bool
  /-- Whether a floating-point number is greater than another one. -/
  gt : Double → Double → Bool
  /-- Whether a floating-point number is at least another one. -/
  ge : Double → Double → Bool
  /-- What the output function answers, by the number of its earlier calls. -/
  printed : Nat → BitVec 32

/-- One call of the output function. -/
structure Event (Double : Type) where
  /-- The format. -/
  format : Bytes
  /-- What is printed. -/
  argument : Datum Double

/-- The output of a run, the first event first. -/
abbrev Trace (Double : Type) := List (Event Double)

/-- Whether two words have no quotient: the divisor is zero, or the least word is divided by minus
one. -/
def faulty (dividend divisor : BitVec 32) : Bool :=
  divisor == 0#32 || (dividend == BitVec.intMin 32 && divisor == BitVec.allOnes 32)

/-- What an operation comes to. -/
inductive Computed (Double : Type) where
  /-- It has a result. -/
  | value (result : Datum Double)
  /-- It traps. -/
  | trap
  /-- It has no meaning for its operands. -/
  | stuck

/-- The value that a variable of a type begins with. -/
def zeroDatum {Double : Type} (machine : Machine Double) : BasicType → Option (Datum Double)
  | .int => some (.int 0#32)
  | .float => some (.float (machine.ofFloat 0))
  | .bool => some (.bool false)
  | .string => some (.string [])
  | .void | .invalid => none

theorem type_of_zeroDatum {Double : Type} {machine : Machine Double} {type : BasicType}
    {datum : Datum Double} (zero : zeroDatum machine type = some datum) : datum.type = type := by
  cases type with
  | int | float | bool | string =>
      cases zero
      rfl
  | void | invalid => cases zero

/-- How a bounded run goes. -/
inductive Run (Double : Type) (α : Type) where
  /-- It comes to an end with a result. -/
  | done (result : α)
  /-- It traps, with some output before. -/
  | trapped (trace : Trace Double)
  /-- It comes to something that has no meaning. -/
  | stuck
  /-- It reaches its bound. -/
  | unfinished

namespace Run

variable {Double α β γ : Type}

/-- Go on from the result of a run. -/
def bind (run : Run Double α) (next : α → Run Double β) : Run Double β :=
  match run with
  | .done result => next result
  | .trapped trace => .trapped trace
  | .stuck => .stuck
  | .unfinished => .unfinished

@[simp]
theorem bind_done (result : α) (next : α → Run Double β) : (done result).bind next = next result :=
  rfl

@[simp]
theorem bind_trapped (trace : Trace Double) (next : α → Run Double β) :
    (trapped trace).bind next = .trapped trace := rfl

@[simp]
theorem bind_stuck (next : α → Run Double β) : (stuck : Run Double α).bind next = .stuck := rfl

@[simp]
theorem bind_unfinished (next : α → Run Double β) :
    (unfinished : Run Double α).bind next = .unfinished := rfl

theorem bind_assoc (run : Run Double α) (first : α → Run Double β) (second : β → Run Double γ) :
    (run.bind first).bind second = run.bind fun result => (first result).bind second := by
  cases run <;> rfl

/-- One run is another one with a smaller bound. -/
def Below (smaller larger : Run Double α) : Prop := smaller = .unfinished ∨ smaller = larger

namespace Below

theorem refl (run : Run Double α) : run.Below run := .inr rfl

theorem of_unfinished (run : Run Double α) : (unfinished : Run Double α).Below run := .inl rfl

theorem of_eq {first second : Run Double α} (same : first = second) : first.Below second :=
  .inr same

theorem trans {first second third : Run Double α} (left : first.Below second)
    (right : second.Below third) : first.Below third := by
  rcases left with rfl | rfl
  · exact of_unfinished third
  · exact right

/-- What has ended stays as it is. -/
theorem eq_of_ended {first second : Run Double α} (below : first.Below second)
    (ended : first ≠ .unfinished) : second = first :=
  (below.resolve_left ended).symm

theorem bind {first second : Run Double α} {next next' : α → Run Double β}
    (below : first.Below second) (onward : ∀ result, (next result).Below (next' result)) :
    (first.bind next).Below (second.bind next') := by
  rcases below with rfl | rfl
  · exact of_unfinished _
  · cases first with
    | done result => exact onward result
    | trapped trace => exact refl _
    | stuck => exact refl _
    | unfinished => exact refl _

theorem eq_unfinished {first : Run Double α} (below : first.Below .unfinished) :
    first = .unfinished := by
  rcases below with rfl | rfl <;> rfl

end Below

/-- One run goes like another one, with a converted result, unless the other one traps or gets
stuck. -/
def Upto (convert : α → β) : Run Double α → Run Double β → Prop
  | .done result, other => other = .done (convert result)
  | .unfinished, other => other = .unfinished
  | .trapped _, _ | .stuck, _ => True

namespace Upto

theorem refl (run : Run Double α) : Upto id run run := by
  cases run <;> trivial

theorem trans {convert : α → β} {convert' : β → γ} {first : Run Double α} {second : Run Double β}
    {third : Run Double γ} (left : Upto convert first second) (right : Upto convert' second third) :
    Upto (convert' ∘ convert) first third := by
  cases first with
  | done result =>
      cases left
      exact right
  | unfinished =>
      cases left
      exact right
  | trapped trace => trivial
  | stuck => trivial

theorem bind {α' β' : Type} {convert : α → β} {convert' : α' → β'} {first : Run Double α}
    {second : Run Double β} {next : α → Run Double α'} {next' : β → Run Double β'}
    (upto : Upto convert first second)
    (onward : ∀ result, Upto convert' (next result) (next' (convert result))) :
    Upto convert' (first.bind next) (second.bind next') := by
  cases first with
  | done result =>
      cases upto
      exact onward result
  | unfinished =>
      cases upto
      rfl
  | trapped trace => trivial
  | stuck => trivial

/-- A run that neither traps nor gets stuck has a counterpart. -/
theorem eq_of_fine {first second : Run Double α} (upto : Upto id first second)
    (safe : ∀ trace, first ≠ .trapped trace) (notStuck : first ≠ .stuck) : second = first := by
  cases first with
  | done result => exact upto
  | unfinished => exact upto
  | trapped trace => exact absurd rfl (safe trace)
  | stuck => exact absurd rfl notStuck

end Upto

end Run

/-- How a call of a function ends, other than by running forever. -/
inductive Ending (Double : Type) where
  /-- It returns, with a value if the function has a result. -/
  | returned (value : Option (Datum Double)) (trace : Trace Double)
  /-- It traps. -/
  | trapped (trace : Trace Double)

/-- A call of a function: the arguments and the output so far come to a value and more output. -/
abbrev Call (Double : Type) :=
  Bytes → List (Datum Double) → Trace Double → Run Double (Option (Datum Double) × Trace Double)

/-- The run that ends in a given way. -/
def Ending.run {Double : Type} : Ending Double → Run Double (Option (Datum Double) × Trace Double)
  | .returned value trace => .done (value, trace)
  | .trapped trace => .trapped trace

theorem Ending.run_injective {Double : Type} : Function.Injective (@Ending.run Double) := by
  intro first second same
  cases first <;> cases second <;> cases same <;> rfl

/-- Calls with a greater bound finish what calls with a smaller one finish. -/
def Call.Below {Double : Type} (smaller larger : Call Double) : Prop :=
  ∀ name arguments trace, (smaller name arguments trace).Below (larger name arguments trace)

/-- Calls go like other ones, unless those trap or get stuck. -/
def Call.Upto {Double : Type} (call other : Call Double) : Prop :=
  ∀ name arguments trace, Run.Upto id (call name arguments trace) (other name arguments trace)

/-- Calls of a named function with some arguments and no output so far end in a given way. -/
def Call.Ends {Double : Type} (call : Nat → Call Double) (name : Bytes)
    (arguments : List (Datum Double)) (ending : Ending Double) : Prop :=
  ∃ bound, call bound name arguments [] = ending.run

/-- Calls of a named function with some arguments and no output so far never come to an end. -/
def Call.Diverges {Double : Type} (call : Nat → Call Double) (name : Bytes)
    (arguments : List (Datum Double)) : Prop :=
  ∀ bound, call bound name arguments [] = .unfinished

/-- Where greater bounds only finish what was unfinished, a call ends in one way. -/
theorem Call.Ends.unique {Double : Type} {call : Nat → Call Double}
    (grows : ∀ bound bound', bound ≤ bound' → (call bound).Below (call bound')) {name : Bytes}
    {arguments : List (Datum Double)} {first second : Ending Double}
    (left : Call.Ends call name arguments first) (right : Call.Ends call name arguments second) :
    first = second := by
  obtain ⟨bound, isFirst⟩ := left
  obtain ⟨bound', isSecond⟩ := right
  have ended : ∀ ending : Ending Double, ending.run ≠ .unfinished := by
    intro ending
    cases ending <;> exact nofun
  have leftBelow := grows bound (max bound bound') (Nat.le_max_left _ _) name arguments []
  have rightBelow := grows bound' (max bound bound') (Nat.le_max_right _ _) name arguments []
  rw [isFirst] at leftBelow
  rw [isSecond] at rightBelow
  exact Ending.run_injective
    ((leftBelow.eq_of_ended (ended first)).symm.trans (rightBelow.eq_of_ended (ended second)))

end ScriptCompiler.Semantics
