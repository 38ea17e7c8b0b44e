import ScriptCompiler.IR.Module
import ScriptCompiler.Optimize.DeadCode
import ScriptCompiler.Optimize.Folding

/-!
# The optimizer

The optimizer runs its passes over every function, round after round, until a round changes nothing
or the limit on rounds is reached, and keeps statistics of what it did.
-/

namespace ScriptCompiler.IR

/-- A transformation of functions. -/
inductive Pass where
  /-- Constant folding, which counts into the statistics or not. -/
  | folding (counted : Bool)
  /-- Dead code elimination. -/
  | deadCode
  /-- A pass that refuses every function. -/
  | refusing (name reason : Bytes)
  deriving DecidableEq, Repr

namespace Pass

/-- The name of a pass. -/
def name : Pass → Bytes
  | .folding _ => "ConstantFolding"
  | .deadCode => "DeadCodeElimination"
  | .refusing name _ => name

end Pass

/-- What a pass did to a function. -/
structure PassResult where
  /-- The function after the pass. -/
  function : Function
  /-- Whether anything changed. -/
  changed : Bool
  /-- The number of constants folded that count. -/
  folded : Nat := 0

/-- Run a pass on a function. -/
def Pass.run (pass : Pass) (function : Function) : Except Bytes PassResult :=
  match pass with
  | .folding counted =>
      let (result, found) := function.foldConstants
      .ok ⟨result, found.changed, if counted then found.folded else 0⟩
  | .deadCode =>
      let (result, changed) := function.eliminateDeadCode
      .ok { function := result, changed }
  | .refusing _ reason => .error reason

/-- What an optimizer did. -/
structure Stats where
  /-- The number of instructions removed. -/
  instructionsRemoved : Int := 0
  /-- The number of blocks removed. -/
  blocksRemoved : Int := 0
  /-- The number of constants folded. -/
  constantsFolded : Nat := 0
  /-- How often each pass has run, by its name. -/
  runs : List (Bytes × Nat) := []
  deriving DecidableEq, Repr

namespace Stats

/-- The summary on one line. -/
def text (stats : Stats) : Bytes :=
  "instructions removed: " ++ Bytes.ofInt stats.instructionsRemoved ++ ", blocks removed: " ++
    Bytes.ofInt stats.blocksRemoved ++ ", constants folded: " ++ Bytes.ofNat stats.constantsFolded

/-- Count a run of a pass. -/
def countRun (stats : Stats) (name : Bytes) : Stats :=
  if stats.runs.any fun entry => entry.1 == name then
    { stats with runs := stats.runs.map fun entry =>
        if entry.1 == name then (name, entry.2 + 1) else entry }
  else { stats with runs := stats.runs ++ [(name, 1)] }

end Stats

/-- A change that a pass made. -/
structure PassChange where
  /-- The pass. -/
  pass : Bytes
  /-- The function. -/
  function : Bytes
  /-- The round, counted from zero. -/
  round : Nat
  deriving DecidableEq, Repr

/-- An optimizer. -/
structure Optimizer where
  /-- The passes of a round. -/
  passes : List Pass
  /-- The greatest number of rounds for a function. -/
  maxRounds : Int := 10
  /-- What it did so far. -/
  stats : Stats := {}
  deriving DecidableEq, Repr

/-- The optimizer of a level: none at level zero and below, and both passes above. -/
def Optimizer.ofLevel (level : Int) : Optimizer :=
  { passes := if 0 < level then [.folding true, .deadCode] else [] }

/-- A function in the course of its optimization. -/
structure Progress where
  /-- The function as it stands. -/
  function : Function
  /-- The statistics as they stand. -/
  stats : Stats
  /-- The changes so far, the first one first. -/
  changes : List PassChange := []
  /-- Why the optimization stopped, if a pass refused the function. -/
  failure : Option Bytes := none

namespace Progress

/-- Run the passes of a round; the answer tells whether any changed the function. -/
def runPasses (round : Nat) : List Pass → Progress → Progress × Bool
  | [], progress => (progress, false)
  | pass :: rest, progress =>
      match pass.run progress.function with
      | .error reason =>
          ({ progress with failure := some ("pass " ++ pass.name ++ ": " ++ reason) }, false)
      | .ok result =>
          let counted := progress.stats.countRun pass.name
          let next : Progress :=
            { progress with
              function := result.function
              stats := { counted with constantsFolded := counted.constantsFolded + result.folded }
              changes := progress.changes ++
                if result.changed then [⟨pass.name, progress.function.name, round⟩] else [] }
          let (last, changed) := runPasses round rest next
          (last, result.changed || changed)

/-- Run at most `rounds` rounds, the first of which has the number `round`. -/
def runRounds (passes : List Pass) : Nat → Nat → Progress → Progress
  | 0, _, progress => progress
  | rounds + 1, round, progress =>
      let (next, changed) := progress.runPasses round passes
      if next.failure.isNone && changed then runRounds passes rounds (round + 1) next else next

end Progress

namespace Optimizer

/-- Optimize a function. -/
def optimizeFunction (optimizer : Optimizer) (function : Function) : Progress :=
  let start : Progress := { function, stats := optimizer.stats }
  if optimizer.passes.isEmpty then start
  else
    let last := start.runRounds optimizer.passes optimizer.maxRounds.toNat 0
    if last.failure.isSome then last
    else
      let instrs := (function.instrs.length : Int) - last.function.instrs.length
      let blocks := (function.blocks.length : Int) - last.function.blocks.length
      { last with stats :=
          { last.stats with
            instructionsRemoved := last.stats.instructionsRemoved + instrs
            blocksRemoved := last.stats.blocksRemoved + blocks } }

/-- What optimizing a list of functions comes to. -/
structure Outcome where
  /-- The functions, optimized up to a failure. -/
  functions : List Function
  /-- The optimizer with its statistics. -/
  optimizer : Optimizer
  /-- The changes in order. -/
  changes : List PassChange
  /-- Why it stopped early. -/
  failure : Option Bytes

/-- Optimize functions in order up to the first failure. -/
def optimizeFunctions (optimizer : Optimizer) : List Function → Outcome
  | [] => ⟨[], optimizer, [], none⟩
  | function :: rest =>
      let progress := optimizer.optimizeFunction function
      let next := { optimizer with stats := progress.stats }
      match progress.failure with
      | some reason =>
          ⟨progress.function :: rest, next, progress.changes,
            some ("optimizing " ++ function.name ++ ": " ++ reason)⟩
      | none =>
          let others := next.optimizeFunctions rest
          ⟨progress.function :: others.functions, others.optimizer,
            progress.changes ++ others.changes, others.failure⟩

/-- Optimize every function of a module. -/
def optimize (optimizer : Optimizer) (module : Module) : Module × Outcome :=
  let outcome := optimizer.optimizeFunctions module.functions
  ({ module with functions := outcome.functions }, outcome)

end Optimizer

end ScriptCompiler.IR
