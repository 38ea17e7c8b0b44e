import Mathlib.Logic.Function.Basic
import ScriptCompiler.Optimize.DeadCode
import ScriptCompiler.Optimize.Folding

/-!
# Functions with shared parts

Building makes a new instruction for every place and a new value for every result.  A function that
is put together by hand need not: an instruction may stand in several places, where a new operand in
one place is seen in all of them, a block may stand twice, edges may lead through blocks outside the
function, and any value may be a result or an address, a constant as well.  These are the passes on
such functions.  They do to the functions of a module what the passes on those do, since nothing is
shared there.
-/

namespace ScriptCompiler.IR.Shared

/-! ### Values and instructions -/

/-- What a value is. -/
inductive ValueKind where
  /-- The result of an instruction. -/
  | temporary
  /-- A constant. -/
  | constant
  /-- A parameter of the function. -/
  | parameter
  /-- The address of a stack slot. -/
  | slot
  /-- A string constant. -/
  | global
  /-- A code outside the table. -/
  | unlisted (code : Int)
  deriving DecidableEq, Repr

/-- A value that may be read, defined and used as an address anywhere.  Its kind and its number tell
it apart from others. -/
structure Name where
  /-- What the value is. -/
  kind : ValueKind
  /-- Its number among the values of its kind. -/
  id : Nat
  deriving DecidableEq, Repr

/-- What an instruction reads. -/
inductive Operand where
  /-- A value with a name. -/
  | named (name : Name)
  /-- A value that no instruction defines and no other uses as an address, with what it holds when
  it is a constant. -/
  | plain (content : Option Constant)

/-- What results are known to be. -/
abbrev Known := List (Name × Operand)

namespace Operand

/-- The constant that a value is.  A constant that holds neither a number nor a truth value counts
as one that holds nothing. -/
def constant? (constants : Nat → Constant) : Operand → Option Constant
  | .named ⟨.constant, id⟩ => some (constants id)
  | .named _ => none
  | .plain content => content

/-- What a value is known to be. -/
def known? (known : Known) : Operand → Option Operand
  | .named name => known.lookup name
  | .plain _ => none

/-- A value with what is known put in its place. -/
def replaced (known : Known) (operand : Operand) : Operand :=
  (operand.known? known).getD operand

/-- Whether two operands are one value. -/
def isSame : Operand → Operand → Bool
  | .named left, .named right => left == right
  | _, _ => false

end Operand

/-- An instruction. -/
inductive Node where
  /-- An operation on two values. -/
  | binary (opcode : BinaryOpcode) (dest : Option Name) (left right : Operand)
  /-- An operation on one value. -/
  | unary (opcode : UnaryOpcode) (dest : Option Name) (operand : Operand)
  /-- Another name for a value. -/
  | copy (dest : Option Name) (value : Operand)
  /-- A new stack slot. -/
  | alloca (dest : Option Name) (type : BasicType)
  /-- The content of a slot. -/
  | load (dest : Option Name) (address : Operand)
  /-- A new content of a slot. -/
  | store (address value : Operand)
  /-- A call. -/
  | call (dest : Option Name) (callee : Callee) (arguments : List Operand)
  /-- Go on in another block. -/
  | jump (target : Nat)
  /-- Go on in one of two blocks. -/
  | branch (condition : Operand) (ifTrue ifFalse : Nat)
  /-- Leave the function. -/
  | ret (value : Option Operand)

namespace Node

/-- The value that an instruction defines. -/
def result? : Node → Option Name
  | .binary _ dest _ _ | .unary _ dest _ | .copy dest _ | .alloca dest _ | .load dest _
  | .call dest _ _ => dest
  | .store .. | .jump _ | .branch .. | .ret _ => none

/-- The values that an instruction reads. -/
def operands : Node → List Operand
  | .binary _ _ left right => [left, right]
  | .unary _ _ operand => [operand]
  | .copy _ value => [value]
  | .alloca .. => []
  | .load _ address => [address]
  | .store address value => [address, value]
  | .call _ _ arguments => arguments
  | .jump _ => []
  | .branch condition _ _ => [condition]
  | .ret value => value.toList

/-- The values of an instruction that what is known may stand in for: all that it reads but
addresses. -/
def inputs : Node → List Operand
  | .load .. => []
  | .store _ value => [value]
  | node => node.operands

/-- An instruction with what is known in the place of its inputs. -/
def substituted (known : Known) : Node → Node
  | .binary opcode dest left right =>
      .binary opcode dest (left.replaced known) (right.replaced known)
  | .unary opcode dest operand => .unary opcode dest (operand.replaced known)
  | .copy dest value => .copy dest (value.replaced known)
  | .store address value => .store address (value.replaced known)
  | .call dest callee arguments => .call dest callee (arguments.map (Operand.replaced known))
  | .branch condition ifTrue ifFalse => .branch (condition.replaced known) ifTrue ifFalse
  | .ret value => .ret (value.map (Operand.replaced known))
  | node => node

/-- Whether what is known stands in the place of an input. -/
def isSubstituted (known : Known) (node : Node) : Bool :=
  node.inputs.any fun operand => (operand.known? known).isSome

/-- The copy or the jump that takes the place of an operation or a branch on constants, and the
block that control no longer passes to. -/
def folded? (constants : Nat → Constant) : Node → Option (Node × Option Nat)
  | .binary opcode dest left right =>
      match left.constant? constants, right.constant? constants with
      | some left, some right =>
          (opcode.onConstants? left right).map fun result =>
            (.copy dest (.plain (some result)), none)
      | _, _ => none
  | .unary opcode dest operand =>
      match operand.constant? constants with
      | some operand =>
          (opcode.onConstant? operand).map fun result => (.copy dest (.plain (some result)), none)
      | none => none
  | .branch condition ifTrue ifFalse =>
      match condition.constant? constants with
      | some (.bool true) => some (.jump ifTrue, if ifFalse = ifTrue then none else some ifFalse)
      | some (.bool false) => some (.jump ifFalse, if ifTrue = ifFalse then none else some ifTrue)
      | _ => none
  | _ => none

/-- What a copy of a constant makes known. -/
def facts (constants : Nat → Constant) : Node → Known
  | .copy (some dest) value => if (value.constant? constants).isSome then [(dest, value)] else []
  | _ => []

/-- Whether the instruction does more than define its result. -/
def hasEffect : Node → Bool
  | .store .. | .call .. | .ret _ | .branch .. | .jump _ => true
  | _ => false

end Node

/-- A place in the code of a block. -/
inductive Occurrence where
  /-- An instruction that may stand in other places too, by its number. -/
  | cell (number : Nat)
  /-- An instruction that stands nowhere else. -/
  | own (node : Node)

namespace Occurrence

/-- The instruction in a place. -/
def node (cells : Nat → Node) : Occurrence → Node
  | .cell number => cells number
  | .own node => node

/-- The number of an instruction that may stand in other places too. -/
def cell? : Occurrence → Option Nat
  | .cell number => some number
  | .own _ => none

/-- Give the instruction in a place new operands. -/
def write (cells : Nat → Node) (node : Node) : Occurrence → (Nat → Node) × Occurrence
  | .cell number => (Function.update cells number node, .cell number)
  | .own _ => (cells, .own node)

end Occurrence

/-! ### Functions -/

/-- A function as it may be put together by hand.  Blocks are numbered, in the function or not. -/
structure Function where
  /-- Whether it is only declared. -/
  external : Bool := false
  /-- What the constants hold, by number. -/
  constants : Nat → Constant
  /-- The instructions that may stand in several places, by number. -/
  cells : Nat → Node
  /-- The code of the blocks. -/
  code : Nat → List Occurrence
  /-- What the blocks take for their places. -/
  index : Nat → Nat
  /-- The blocks in order. -/
  blocks : List Nat
  /-- The edges: a block, and one that control may pass to. -/
  successors : List (Nat × Nat)
  /-- The edges again: a block, and one that control may come from. -/
  predecessors : List (Nat × Nat)

namespace Function

/-- The number of the entry block. -/
def entry : Nat := 0

/-- The instructions of a function, block by block. -/
def listing (function : Function) : List Node :=
  function.blocks.flatMap fun block => (function.code block).map (Occurrence.node function.cells)

/-- The ends of the edges that begin in a block. -/
def ends (edges : List (Nat × Nat)) (block : Nat) : List Nat :=
  edges.filterMap fun edge => if edge.1 = block then some edge.2 else none

/-- The blocks that control may pass to from a block. -/
def successorsOf (function : Function) (block : Nat) : List Nat := ends function.successors block

/-- The blocks that control may come from before a block. -/
def predecessorsOf (function : Function) (block : Nat) : List Nat :=
  ends function.predecessors block

/-- Forget that control may pass from one block to another. -/
def removeEdge (function : Function) (source target : Nat) : Function :=
  { function with
    successors := function.successors.filter (· != (source, target))
    predecessors := function.predecessors.filter (· != (target, source)) }

/-- Forget edges one after the other. -/
def removeEdges (function : Function) (edges : List (Nat × Nat)) : Function :=
  edges.foldl (fun function edge => function.removeEdge edge.1 edge.2) function

end Function

/-! ### Constant folding -/

/-- What folding has found so far. -/
structure Folding where
  /-- The instructions that may stand in several places. -/
  cells : Nat → Node
  /-- What results are known to be. -/
  known : Known := []
  /-- Whether anything changed. -/
  changed : Bool := false

namespace Folding

/-- Fold one instruction.  The third answer is the block that control no longer passes to. -/
def onOccurrence (constants : Nat → Constant) (state : Folding) (place : Occurrence) :
    Folding × Occurrence × Option Nat :=
  let before := place.node state.cells
  let given := before.substituted state.known
  let (cells, kept) := place.write state.cells given
  match given.folded? constants with
  | some (made, dropped) =>
      ({ cells, known := made.facts constants ++ state.known, changed := true }, .own made, dropped)
  | none =>
      ({ cells, known := given.facts constants ++ state.known,
         changed := state.changed || before.isSubstituted state.known }, kept, none)

/-- Fold the code of a block in order. -/
def onCode (constants : Nat → Constant) (state : Folding) :
    List Occurrence → Folding × List Occurrence × List Nat
  | [] => (state, [], [])
  | place :: rest =>
      let (next, folded, dropped) := state.onOccurrence constants place
      let (last, others, droppedLater) := next.onCode constants rest
      (last, folded :: others, dropped.toList ++ droppedLater)

/-- Fold blocks in order. -/
def onBlocks (constants : Nat → Constant) (state : Folding) (code : Nat → List Occurrence) :
    List Nat → Folding × (Nat → List Occurrence) × List (Nat × Nat)
  | [] => (state, code, [])
  | block :: rest =>
      let (next, folded, dropped) := state.onCode constants (code block)
      let (last, final, edges) := next.onBlocks constants (Function.update code block folded) rest
      (last, final, dropped.map (fun target => (block, target)) ++ edges)

end Folding

namespace Function

/-- Fold the constants of a function, and tell whether anything changed. -/
def foldConstants (function : Function) : Function × Bool :=
  let (found, code, edges) :=
    Folding.onBlocks function.constants { cells := function.cells } function.code function.blocks
  (removeEdges { function with cells := found.cells, code } edges, found.changed)

/-! ### Dead code elimination -/

/-- The blocks that can be reached from the entry.  A new one is found at the end of an edge. -/
def reachable (function : Function) : List Nat :=
  Search.within function.successorsOf function.successors.length [entry]

/-- Remove all edges out of a block. -/
def detach (function : Function) (block : Nat) : Function :=
  function.removeEdges ((function.successorsOf block).map fun target => (block, target))

/-- Tell each block its place. -/
def renumber (function : Function) : Function :=
  { function with
    index := function.blocks.zipIdx.foldl
      (fun index place => Function.update index place.1 place.2) function.index }

/-- Remove the blocks that cannot be reached, with the edges out of them. -/
def dropUnreachable (function : Function) : Function × Bool :=
  let reached := function.reachable
  let dead := function.blocks.filter fun block => !reached.contains block
  if dead.isEmpty then (function, false)
  else
    let detached := dead.foldl detach function
    (renumber { detached with blocks := detached.blocks.filter reached.contains }, true)

/-- Keep the instructions that satisfy a test, and tell whether any does not. -/
def keepNodes (function : Function) (keep : Node → Bool) : Function × Bool :=
  ({ function with
      code := fun block =>
        if function.blocks.contains block then
          (function.code block).filter fun place => keep (place.node function.cells)
        else function.code block },
    function.listing.any fun node => !keep node)

/-- The addresses that the function loads from. -/
def loaded (function : Function) : List Operand :=
  function.listing.filterMap fun node =>
    match node with
    | .load _ address => some address
    | _ => none

/-- Remove the stores into slots that are never loaded. -/
def dropDeadStores (function : Function) : Function × Bool :=
  let addresses := function.loaded
  function.keepNodes fun node =>
    match node with
    | .store address _ => addresses.any address.isSame
    | _ => true

/-- The values that the function reads. -/
def used (function : Function) : List Operand := function.listing.flatMap Node.operands

/-- Remove the instructions that only define a result that nothing reads. -/
def dropUnused (function : Function) : Function × Bool :=
  let values := function.used
  function.keepNodes fun node =>
    node.hasEffect ||
      match node.result? with
      | some result => values.any (Operand.named result).isSame
      | none => false

/-- The three deletions, one after the other. -/
def sweep (function : Function) : Function × Bool :=
  let (first, blocks) := function.dropUnreachable
  let (second, stores) := first.dropDeadStores
  let (third, nodes) := second.dropUnused
  (third, blocks || stores || nodes)

/-- Repeat the deletions, at most `rounds` times, until nothing is found. -/
def sweepWithin : Nat → Function → Function × Bool
  | 0, function => (function, false)
  | rounds + 1, function =>
      let (next, changed) := function.sweep
      if changed then ((sweepWithin rounds next).1, true) else (next, false)

/-- The number of blocks and instructions. -/
def size (function : Function) : Nat := function.blocks.length + function.listing.length

/-- Eliminate dead code.  Every round but the last removes a block or an instruction, which bounds
their number. -/
def eliminateDeadCode (function : Function) : Function × Bool :=
  function.sweepWithin (function.size + 1)

end Function

/-! ### Rounds -/

/-- What the optimizer makes of a function. -/
structure Outcome where
  /-- The function as the optimizer leaves it. -/
  function : Function
  /-- Whether constant folding and dead code elimination changed it, round by round. -/
  reports : List (Bool × Bool)

namespace Function

/-- Run both passes at most `rounds` times, until they change nothing. -/
def runRounds : Nat → Function → Outcome
  | 0, function => ⟨function, []⟩
  | rounds + 1, function =>
      let (folded, first) := function.foldConstants
      let (cleared, second) := folded.eliminateDeadCode
      if first || second then
        let last := runRounds rounds cleared
        ⟨last.function, (first, second) :: last.reports⟩
      else ⟨cleared, [(first, second)]⟩

/-- Optimize a function at a level.  What is only declared stays as it is, and so does everything at
level zero and below. -/
def optimize (level maxRounds : Int) (function : Function) : Outcome :=
  if function.external || level ≤ 0 then ⟨function, []⟩ else function.runRounds maxRounds.toNat

end Function

end ScriptCompiler.IR.Shared
