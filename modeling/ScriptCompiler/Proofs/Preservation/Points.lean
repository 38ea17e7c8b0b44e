import ScriptCompiler.Proofs.IR.Progress
import ScriptCompiler.Proofs.Lowering.StmtCourse
import ScriptCompiler.Proofs.Preservation.Bounded
import ScriptCompiler.Proofs.Semantics.Source

/-!
# Points of a function that runs

A state in the course of lowering a function stands for a point of the finished function: the end of
what has been put into the current block so far.  The run from such a point goes on with the
instructions that are put there next, and a block that is entered while it is empty runs from its
beginning.
-/

namespace ScriptCompiler.Lowering

open IR Semantics Bounded

/-- What a function of a module and a function of the source run in, side by side. -/
structure Simulation (Double : Type) where
  /-- The machine. -/
  machine : Machine Double
  /-- The module. -/
  module : Module
  /-- The state in which the function of the module is finished. -/
  final : State
  /-- The functions that can be called. -/
  signature? : Bytes → Option Signature
  /-- The names of functions of the source. -/
  declared : Bytes → Bool
  /-- Calls of functions of the source. -/
  call : Call Double
  /-- The depth within which calls are compared. -/
  depth : Nat
  /-- The rounds of a loop within which runs are compared. -/
  rounds : Nat
  /-- Blocks are numbered. -/
  numbered : final.function.Numbered
  /-- The module has the string constants. -/
  strings : final.strings <+: module.strings
  /-- Calls meet calls of the source, and yield what the signature says. -/
  calls : ∀ name signature, signature? name = some signature → declared name = true ∧
    ∀ data : List (Datum Double), data.map Datum.type = signature.params → ∀ trace,
      Meets depth rounds (call name data trace)
        (fun depth _ => module.call machine depth name data trace)
        fun result onward => onward = const (.done result) ∧ Returned signature.result result.1
  /-- The output function is none of the source, unless it can be called. -/
  undeclared : signature? outputName = none → declared outputName = false

namespace Simulation

variable {Double : Type} (sim : Simulation Double) {state later : State} {frame next : Frame Double}
  {trace : Trace Double} {instr : Instr} {instrs : List Instr}

/-- The run of instructions of the function. -/
def running (instrs : List Instr) (frame : Frame Double) (trace : Trace Double) : Bounded Double :=
  fun depth blocks =>
    runInstrs sim.machine sim.module.strings (sim.module.call sim.machine depth)
      (sim.final.function.enter sim.machine sim.module.strings
        (sim.module.call sim.machine depth) blocks)
      instrs frame trace

/-- The run of the function from the beginning of a block. -/
def entering (id : Nat) (frame : Frame Double) (trace : Trace Double) : Bounded Double :=
  fun depth blocks =>
    sim.final.function.enter sim.machine sim.module.strings
      (sim.module.call sim.machine depth) blocks id
      frame trace

/-- What stands behind the code of a state in its current block. -/
def rest (state : State) : List Instr :=
  (sim.final.function.code state.current.id).drop (state.function.code state.current.id).length

/-- The run of the function from the end of the code of a state. -/
def point (state : State) (frame : Frame Double) (trace : Trace Double) : Bounded Double :=
  sim.running (sim.rest state) frame trace

theorem grows_call {machine : Machine Double} (module : Module) {name : Bytes}
    {data : List (Datum Double)} :
    Grows fun depth _ => module.call machine depth name data trace :=
  fun deeper _ => module.call_below deeper name data trace

theorem grows_running : (sim.running instrs frame trace).Grows := fun deeper more =>
  runInstrs_below (sim.module.call_below deeper)
    (sim.final.function.enter_below (sim.module.call_below deeper) more) instrs frame trace

section Steps

variable {tail : List Instr}

theorem running_proceed
    (action : instr.action sim.machine sim.module.strings frame = .proceed next) :
    sim.running (instr :: tail) frame trace = sim.running tail next trace := by
  funext depth blocks
  simp only [running, runInstrs, action]

theorem running_goto {target : Nat}
    (action : instr.action sim.machine sim.module.strings frame = .goto target) :
    sim.running (instr :: tail) frame trace = sim.entering target frame trace := by
  funext depth blocks
  simp only [running, runInstrs, action, entering]

theorem running_trap (action : instr.action sim.machine sim.module.strings frame = .trap) :
    sim.running (instr :: tail) frame trace = const (.trapped trace) := by
  funext depth blocks
  simp only [running, runInstrs, action, const]

theorem running_leave {value : Option (Datum Double)}
    (action : instr.action sim.machine sim.module.strings frame = .leave value) :
    sim.running (instr :: tail) frame trace = const (.done (value, trace)) := by
  funext depth blocks
  simp only [running, runInstrs, action, const]

theorem running_print {event : Event Double}
    (action : instr.action sim.machine sim.module.strings frame = .print none event) :
    sim.running (instr :: tail) frame trace = sim.running tail frame (trace ++ [event]) := by
  funext depth blocks
  simp only [running, runInstrs, action, Frame.receive]

/-- What a call of a function of the module comes to. -/
def received (dest : Option Temp) (tail : List Instr) (frame : Frame Double)
    (result : Option (Datum Double) × Trace Double) : Bounded Double :=
  match frame.receive dest result.1 with
  | some frame => sim.running tail frame result.2
  | none => const .stuck

theorem grows_received {dest : Option Temp} (result : Option (Datum Double) × Trace Double) :
    (sim.received dest tail frame result).Grows := by
  unfold received
  split
  · exact sim.grows_running
  · exact grows_const _

theorem running_invoke {dest : Option Temp} {callee : Bytes} {data : List (Datum Double)}
    (action : instr.action sim.machine sim.module.strings frame = .invoke dest callee data) :
    sim.running (instr :: tail) frame trace = fun depth blocks =>
      (sim.module.call sim.machine depth callee data trace).bind fun result =>
        sim.received dest tail frame result depth blocks := by
  funext depth blocks
  simp only [running, runInstrs, action, received]
  congr 1
  funext result
  obtain ⟨value, later⟩ := result
  dsimp only
  cases frame.receive dest value <;> rfl

end Steps

section Points

/-- A state that takes notes stays at its point. -/
theorem point_congr (current : later.current = state.current)
    (code : later.function.code state.current.id = state.function.code state.current.id) :
    sim.point later frame trace = sim.point state frame trace := by
  unfold point rest
  rw [current, code]

/-- Instructions that are put into the current block run at its point. -/
theorem rest_of_code (current : later.current = state.current)
    (code : later.function.code state.current.id = state.function.code state.current.id ++ instrs)
    (grows : later.Grows sim.final) : sim.rest state = instrs ++ sim.rest later := by
  obtain ⟨behind, whole⟩ := grows.code_extends state.current.id
  unfold rest
  rw [current, ← whole, code, List.drop_left, List.append_assoc, List.drop_left]

theorem point_put (owned : (state.function.block? state.current.id).isSome) {count : Nat}
    (grows : (state.put instr count).Grows sim.final) :
    sim.point state frame trace =
      sim.running (instr :: sim.rest (state.put instr count)) frame trace := by
  have current : (state.put instr count).current = state.current := by
    simp [State.put, State.emit]
  rw [point, sim.rest_of_code current (State.code_put_self owned) grows, List.singleton_append]

/-- A block that is entered while it is empty runs from its beginning. -/
theorem entering_succ {name : BlockName} (below : name.id < sim.final.function.nextBlock)
    (empty : state.function.code name.id = []) (depth blocks : Nat) :
    sim.entering name.id frame trace depth (blocks + 1) =
      sim.point (state.enter name) frame trace depth blocks := by
  obtain ⟨block, found⟩ := sim.numbered.exists_block below
  have whole : sim.rest (state.enter name) = block.instrs := by
    have code : (state.enter name).function.code name.id = [] := empty
    have current : (state.enter name).current = name := rfl
    rw [rest, current, code, List.length_nil, List.drop_zero, Function.code_eq found]
  simp only [entering, Function.enter, found, point, running, whole]

variable {α : Type} {name : BlockName} {depth blocks : Nat} {run : Run Double α}
  {asked : α → Bounded Double → Prop}

/-- Control comes to the beginning of a block that is entered while it is empty. -/
theorem leads_entering (below : name.id < sim.final.function.nextBlock)
    (empty : state.function.code name.id = []) :
    (sim.entering name.id frame trace).Leads (sim.point (state.enter name) frame trace) :=
  .of_spent (sim.entering_succ below empty) (fun _ => rfl) sim.grows_running

/-- Control comes to a block that is entered while it is empty. -/
theorem meets_entering (below : name.id < sim.final.function.nextBlock)
    (empty : state.function.code name.id = [])
    (meets : Meets depth blocks run (sim.point (state.enter name) frame trace) asked) :
    Meets depth blocks run (sim.entering name.id frame trace) asked :=
  meets.lead (sim.leads_entering below empty)

end Points

end Simulation

end ScriptCompiler.Lowering
