import ScriptCompiler.Proofs.IR.ControlFlow
import ScriptCompiler.Proofs.Semantics.Blocks

/-!
# Functions that run alike

A function is simulated by another one if every run of it that neither traps nor gets stuck is a run
of the other one, with the same bound, output and result.  To prove this it is enough to relate
frames and to follow the code instruction by instruction (`Follows.cons`, `Follows.skip`).

Simulations go on through calls: the functions of two modules that simulate each other one for one
can be called alike (`Module.call_upto`).
-/

namespace ScriptCompiler.IR

open Semantics

variable {Double : Type} {machine : Machine Double} {strings : List Bytes}

/-! ### Instructions -/

/-- What one instruction asks for in a frame is what another one asks for in a related frame, unless
it is a trap or nothing at all. -/
inductive Action.Upto (related : Frame Double → Frame Double → Prop) (frame other : Frame Double) :
    Action Double → Action Double → Prop where
  | proceed {next next' : Frame Double} : related next next' →
      Upto related frame other (.proceed next) (.proceed next')
  | invoke {dest : Option Temp} {callee : Bytes} {arguments : List (Datum Double)} :
      (∀ value next, frame.receive dest value = some next →
        ∃ next', other.receive dest value = some next' ∧ related next next') →
      Upto related frame other (.invoke dest callee arguments) (.invoke dest callee arguments)
  | print {dest : Option Temp} {event : Event Double} :
      (∀ value next, frame.receive dest value = some next →
        ∃ next', other.receive dest value = some next' ∧ related next next') →
      Upto related frame other (.print dest event) (.print dest event)
  | goto {target : Nat} :
      related frame other → Upto related frame other (.goto target) (.goto target)
  | leave {value : Option (Datum Double)} : Upto related frame other (.leave value) (.leave value)
  | trap (action : Action Double) : Upto related frame other .trap action
  | stuck (action : Action Double) : Upto related frame other .stuck action

theorem Action.ofComputed_ne_goto {frame : Frame Double} {dest : Temp} {target : Nat}
    (computed : Computed Double) : Action.ofComputed frame dest computed ≠ .goto target := by
  cases computed <;> exact nofun

/-- Control goes on in a target of the instruction. -/
theorem Instr.target_of_action {instr : Instr} {frame : Frame Double} {target : Nat}
    (goes : instr.action machine strings frame = .goto target) :
    target ∈ instr.targets.map BlockName.id := by
  cases instr with
  | jump name =>
      cases goes
      exact List.mem_singleton_self _
  | branch condition ifTrue ifFalse =>
      simp only [Instr.action] at goes
      split at goes <;> cases goes <;> simp [Instr.targets]
  | binary opcode dest left right =>
      simp only [Instr.action] at goes
      split at goes
      · exact absurd goes (Action.ofComputed_ne_goto _)
      · cases goes
  | unary opcode dest operand =>
      simp only [Instr.action] at goes
      split at goes
      · exact absurd goes (Action.ofComputed_ne_goto _)
      · cases goes
  | alloca => cases goes
  | copy =>
      simp only [Instr.action] at goes
      split at goes <;> cases goes
  | load dest address =>
      cases address with
      | slot =>
          simp only [Instr.action] at goes
          split at goes <;> cases goes
      | constant | param | temp | string | stray => cases goes
  | store address content =>
      cases address with
      | slot =>
          simp only [Instr.action] at goes
          split at goes <;> cases goes
      | constant | param | temp | string | stray => cases goes
  | call dest callee arguments =>
      simp only [Instr.action] at goes
      split at goes
      · cases goes
      · unfold externalAction at goes
        split at goes
        · split at goes <;> cases goes
        · cases goes
      · cases goes
  | ret value =>
      cases value with
      | none => cases goes
      | some value =>
          simp only [Instr.action] at goes
          split at goes <;> cases goes

/-! ### Code -/

section Code

variable {related : Frame Double → Frame Double → Prop} {call call' : Call Double}
    {goto goto' : Onward Double} {instr instr' : Instr}
  {rest rest' : List Instr}

/-- In related frames one piece of code runs like another one. -/
def Follows (machine : Machine Double) (strings : List Bytes)
    (related : Frame Double → Frame Double → Prop) (call call' : Call Double)
    (goto goto' : Onward Double) (instrs instrs' : List Instr) : Prop :=
  ∀ frame other trace, related frame other →
    Run.Upto id (runInstrs machine strings call goto instrs frame trace)
      (runInstrs machine strings call' goto' instrs' other trace)

/-- In related frames control goes on alike in some blocks. -/
def GoesOn (related : Frame Double → Frame Double → Prop) (goto goto' : Onward Double)
    (targets : List Nat) : Prop :=
  ∀ target ∈ targets, ∀ frame other trace, related frame other →
    Run.Upto id (goto target frame trace) (goto' target other trace)

theorem Follows.nil (instrs : List Instr) :
    Follows machine strings related call call' goto goto' [] instrs :=
  fun _ _ _ _ => trivial

/-- Two instructions that ask for the same go in front. -/
theorem Follows.cons (calls : call.Upto call')
    (gotos : GoesOn related goto goto' (targetIds [instr]))
    (step : ∀ frame other, related frame other →
      Action.Upto related frame other (instr.action machine strings frame)
        (instr'.action machine strings other))
    (follows : Follows machine strings related call call' goto goto' rest rest') :
    Follows machine strings related call call' goto goto' (instr :: rest) (instr' :: rest') := by
  intro frame other trace here
  have both := step frame other here
  simp only [runInstrs]
  generalize isAction : instr.action machine strings frame = action at both
  generalize instr'.action machine strings other = action' at both
  cases both with
  | proceed next => exact follows _ _ trace next
  | @invoke dest callee arguments receives =>
      refine (calls callee arguments trace).bind fun result => ?_
      dsimp only [id]
      cases received : frame.receive dest result.1 with
      | none => trivial
      | some next =>
          obtain ⟨next', received', onward⟩ := receives _ next received
          rw [received']
          exact follows next next' _ onward
  | @print dest event receives =>
      dsimp only
      cases received : frame.receive dest (some (.int (machine.printed trace.length))) with
      | none => trivial
      | some next =>
          obtain ⟨next', received', onward⟩ := receives _ next received
          rw [received']
          exact follows next next' _ onward
  | @goto target onward =>
      refine gotos target ?_ frame other trace onward
      simpa [targetIds] using Instr.target_of_action isAction
  | leave => rfl
  | trap => trivial
  | stuck => trivial

/-- An instruction that keeps frames related can be left out. -/
theorem Follows.skip
    (step : ∀ frame other, related frame other → instr.action machine strings frame = .trap ∨
      instr.action machine strings frame = .stuck ∨
      ∃ next, instr.action machine strings frame = .proceed next ∧ related next other)
    (follows : Follows machine strings related call call' goto goto' rest rest') :
    Follows machine strings related call call' goto goto' (instr :: rest) rest' := by
  intro frame other trace here
  simp only [runInstrs]
  rcases step frame other here with traps | isStuck | ⟨next, proceeds, onward⟩
  · rw [traps]
    trivial
  · rw [isStuck]
    trivial
  · rw [proceeds]
    exact follows next other trace onward

end Code

/-! ### Functions -/

namespace Function

variable {function other : Function} {call call' : Call Double}

/-- The code of a block runs when it is entered. -/
theorem enter_succ (function : Function) (call : Call Double) (bound id : Nat) :
    function.enter machine strings call (bound + 1) id =
      runInstrs machine strings call (function.enter machine strings call bound)
        (function.code id) := by
  funext frame trace
  rw [enter]
  cases found : function.block? id with
  | none =>
      rw [code, found]
      rfl
  | some block => rw [code_eq found]

/-- Blocks whose code runs alike are entered alike, as far as control gets. -/
theorem enter_upto (related : Frame Double → Frame Double → Prop) (live : Nat → Prop)
    (onward : ∀ block, live block → ∀ target ∈ function.targetsOf block, live target)
    (blocks : ∀ block, live block → ∀ goto goto',
      GoesOn related goto goto' (function.targetsOf block) →
      Follows machine strings related call call' goto goto' (function.code block)
        (other.code block))
    (bound : Nat) {block : Nat} (alive : live block) (frame frame' : Frame Double)
    (trace : Trace Double) (here : related frame frame') :
    Run.Upto id (function.enter machine strings call bound block frame trace)
      (other.enter machine strings call' bound block frame' trace) := by
  induction bound generalizing block frame frame' trace with
  | zero => rfl
  | succ bound ih =>
      rw [enter_succ, enter_succ]
      refine blocks block alive _ _ (fun target jumps frame frame' trace near => ?_) frame
        frame' trace here
      exact ih (onward block alive target jumps) frame frame' trace near

/-- A function runs like another one. -/
def Simulates (machine : Machine Double) (strings : List Bytes) (function other : Function) :
    Prop :=
  ∀ call call' : Call Double, call.Upto call' → ∀ bound arguments trace,
    Run.Upto id (function.enter machine strings call bound entry { arguments } trace)
      (other.enter machine strings call' bound entry { arguments } trace)

/-- In the same frame an instruction asks for the same. -/
theorem action_upto_self {instr : Instr} (frame frame' : Frame Double) (same : frame = frame') :
    Action.Upto Eq frame frame' (instr.action machine strings frame)
      (instr.action machine strings frame') := by
  subst same
  generalize instr.action machine strings frame = action
  cases action with
  | proceed next => exact .proceed rfl
  | invoke dest callee arguments => exact .invoke fun value next received => ⟨next, received, rfl⟩
  | print dest event => exact .print fun value next received => ⟨next, received, rfl⟩
  | goto target => exact .goto rfl
  | leave value => exact .leave
  | trap => exact .trap _
  | stuck => exact .stuck _

/-- The same code runs alike where control goes on alike. -/
theorem follows_self (calls : call.Upto call') {goto goto' : Onward Double} (instrs : List Instr)
    (gotos : GoesOn Eq goto goto' (targetIds instrs)) :
    Follows machine strings Eq call call' goto goto' instrs instrs := by
  induction instrs with
  | nil => exact .nil []
  | cons instr rest ih =>
      rw [← List.singleton_append, targetIds_append] at gotos
      refine .cons calls (fun target jumps => ?_) action_upto_self (ih fun target jumps => ?_)
      · exact gotos target (List.mem_append_left _ jumps)
      · exact gotos target (List.mem_append_right _ jumps)

/-- A function whose reachable code is that of another one runs like it. -/
theorem Simulates.of_code (same : ∀ id, function.Reaches id → other.code id = function.code id) :
    function.Simulates machine strings other := by
  intro call call' calls bound arguments trace
  refine enter_upto Eq function.Reaches (fun block reaches target jumps => reaches.tail jumps)
    (fun block reaches goto goto' gotos => ?_) bound .refl _ _ trace rfl
  rw [same block reaches]
  exact follows_self calls _ gotos

theorem Simulates.refl (function : Function) : function.Simulates machine strings function :=
  .of_code fun _ _ => rfl

theorem Simulates.trans {last : Function} (first : function.Simulates machine strings other)
    (second : other.Simulates machine strings last) : function.Simulates machine strings last := by
  intro call call' calls bound arguments trace
  have same : call.Upto call := fun name arguments trace => .refl _
  exact (first call call same bound arguments trace).trans
    (second call call' calls bound arguments trace)

end Function

/-! ### Modules -/

theorem find?_of_forall₂ {related : Function → Function → Prop} {functions others : List Function}
    (each : List.Forall₂ related functions others)
    (names : ∀ function other, related function other → other.name = function.name) (name : Bytes) :
    Option.Rel related (functions.find? fun function => function.name == name)
      (others.find? fun function => function.name == name) := by
  induction each with
  | nil => exact .none
  | cons first _ ih =>
      rw [List.find?_cons, List.find?_cons, names _ _ first]
      split
      · exact .some first
      · exact ih

/-- **Functions that run like those of another module can be called like them.** -/
theorem Module.call_upto {module other : Module} (strings : other.strings = module.strings)
    (functions : List.Forall₂ (fun function function' : Function => function'.name = function.name ∧
      function.Simulates machine module.strings function') module.functions other.functions)
    (bound : Nat) : (module.call machine bound).Upto (other.call machine bound) := by
  induction bound with
  | zero => exact fun name arguments trace => rfl
  | succ bound ih =>
      intro name arguments trace
      have found := find?_of_forall₂ functions (fun _ _ both => both.1) name
      simp only [Module.call]
      change Option.Rel _ (module.function? name) (other.function? name) at found
      generalize module.function? name = function at found
      generalize other.function? name = function' at found
      cases found with
      | none => trivial
      | some both =>
          rw [strings]
          exact both.2 _ _ ih bound arguments trace

end ScriptCompiler.IR
