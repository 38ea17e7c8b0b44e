import ScriptCompiler.IR.Function

/-!
# Dead code elimination

Three deletions are repeated until none finds anything: blocks that cannot be reached from the
entry, stores into slots that are never loaded, and instructions without an effect whose result
nothing reads.  What can be reached is found step by step: the neighbours of what has been found so
far are found next.
-/

namespace ScriptCompiler.IR

namespace Search

/-- Extend a set of numbers by their neighbours. -/
def widen (next : Nat → List Nat) (seen : List Nat) : List Nat :=
  (seen.flatMap next).foldl
    (fun found id => if found.contains id then found else found ++ [id]) seen

/-- Extend a set of numbers by all that is at most `steps` edges away. -/
def within (next : Nat → List Nat) : Nat → List Nat → List Nat
  | 0, seen => seen
  | steps + 1, seen => within next steps (widen next seen)

end Search

namespace Value

/-- Whether two values are one place: the same parameter, slot, result or string constant.  Every
other constant is a value of its own. -/
def isSame : Value → Value → Bool
  | .param left, .param right => left.id == right.id
  | .slot left, .slot right => left.id == right.id
  | .temp left, .temp right => left.id == right.id
  | .string left, .string right => left == right
  | _, _ => false

end Value

namespace Function

/-- The numbers of the blocks that control may pass to from the block with a number. -/
def successorsOf (function : Function) (id : Nat) : List Nat :=
  match function.block? id with
  | some block => block.successors.map BlockName.id
  | none => []

/-- The numbers of the blocks that can be reached from the entry.  No shortest path has more edges
than there are blocks. -/
def reachable (function : Function) : List Nat :=
  Search.within function.successorsOf function.blocks.length [entry]

/-- Remove all edges out of a block. -/
def detach (function : Function) (block : Block) : Function :=
  block.successors.foldl (fun function target => function.removeEdge block.name target) function

/-- Remove the blocks that cannot be reached, with the edges out of them. -/
def dropUnreachable (function : Function) : Function × Bool :=
  let reached := function.reachable
  let isLive : Block → Bool := fun block => reached.contains block.name.id
  let dead := function.blocks.filter fun block => !isLive block
  if dead.isEmpty then (function, false)
  else
    let detached := dead.foldl Function.detach function
    (renumber { detached with blocks := detached.blocks.filter isLive }, true)

/-- Keep the instructions that satisfy a test, and tell whether any does not. -/
def keepInstrs (function : Function) (keep : Instr → Bool) : Function × Bool :=
  ({ function with
      blocks := function.blocks.map fun block =>
        { block with instrs := block.instrs.filter keep } },
    function.instrs.any fun instr => !keep instr)

/-- The addresses that the function loads from. -/
def loaded (function : Function) : List Value :=
  function.instrs.filterMap fun instr =>
    match instr with
    | .load _ address => some address
    | _ => none

/-- Remove the stores into slots that are never loaded. -/
def dropDeadStores (function : Function) : Function × Bool :=
  let addresses := function.loaded
  function.keepInstrs fun instr =>
    match instr with
    | .store address _ => addresses.any address.isSame
    | _ => true

/-- The values that the function reads. -/
def used (function : Function) : List Value := function.instrs.flatMap Instr.operands

/-- Remove the instructions that only define a result that nothing reads. -/
def dropUnused (function : Function) : Function × Bool :=
  let values := function.used
  function.keepInstrs fun instr =>
    instr.hasEffect ||
      match instr.result? with
      | some result => values.any result.isSame
      | none => false

/-- The three deletions, one after the other. -/
def sweep (function : Function) : Function × Bool :=
  let (first, blocks) := function.dropUnreachable
  let (second, stores) := first.dropDeadStores
  let (third, instrs) := second.dropUnused
  (third, blocks || stores || instrs)

/-- Repeat the deletions, at most `rounds` times, until nothing is found. -/
def sweepWithin : Nat → Function → Function × Bool
  | 0, function => (function, false)
  | rounds + 1, function =>
      let (next, changed) := function.sweep
      if changed then ((sweepWithin rounds next).1, true) else (next, false)

/-- Eliminate dead code.  Every round but the last removes a block or an instruction, which bounds
their number. -/
def eliminateDeadCode (function : Function) : Function × Bool :=
  function.sweepWithin (function.blocks.length + function.instrs.length + 1)

end Function

end ScriptCompiler.IR
