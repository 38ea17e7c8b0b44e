import ScriptCompiler.IR.Instr

/-!
# Functions

A function is a list of basic blocks, the first of which is its entry.  Every block lists the blocks
that control may pass to and come from; the two lists are kept together by `addEdge` and
`removeEdge`.
-/

namespace ScriptCompiler.IR

/-- A basic block. -/
structure Block where
  /-- Its number and label. -/
  name : BlockName
  /-- Its place in the function. -/
  index : Nat := 0
  /-- Its instructions in order. -/
  instrs : List Instr := []
  /-- The blocks that control may pass to. -/
  successors : List BlockName := []
  /-- The blocks that control may come from. -/
  predecessors : List BlockName := []

namespace Block

/-- The terminator at the end of a block. -/
def terminator? (block : Block) : Option Instr := block.instrs.getLast?.filter Instr.isTerminator

/-- Whether a block ends in a terminator. -/
def isTerminated (block : Block) : Bool := block.terminator?.isSome

/-- A block as written: label, predecessors, instructions. -/
def text (block : Block) : Bytes :=
  let line : Instr → Bytes := fun instr => "  " ++ instr.text ++ "\n"
  block.name.label ++ ":\n" ++
    Bytes.onlyIf (!block.predecessors.isEmpty)
      ("  ; predecessors: " ++ Bytes.join ", " (block.predecessors.map BlockName.label) ++ "\n") ++
    block.instrs.flatMap line

end Block

/-- A function with a body. -/
structure Function where
  /-- Its name. -/
  name : Bytes
  /-- Its parameters in order. -/
  params : List Place
  /-- The type of its result. -/
  result : BasicType
  /-- Its blocks, the entry first. -/
  blocks : List Block
  /-- The number of the next value. -/
  nextValue : Nat
  /-- The number of the next block. -/
  nextBlock : Nat
  /-- The labels asked for so far. -/
  requests : List Bytes

namespace Function

/-- The number of the entry block. -/
def entry : Nat := 0

/-- The label of a new block: the label asked for, with the number of earlier requests for it behind
a dot when there were any. -/
def freshLabel (function : Function) (label : Bytes) : Bytes :=
  match function.requests.count label with
  | 0 => label
  | earlier + 1 => label ++ "." ++ Bytes.ofNat (earlier + 1)

/-- A new empty block at the end of the function. -/
def newBlock (function : Function) (label : Bytes) : BlockName × Function :=
  let name : BlockName := ⟨function.nextBlock, function.freshLabel label⟩
  (name,
    { function with
      blocks := function.blocks ++ [{ name, index := function.blocks.length }]
      nextBlock := function.nextBlock + 1
      requests := label :: function.requests })

/-- A number for a block that belongs to no function. -/
def outsideBlock (function : Function) (label : Bytes) : BlockName × Function :=
  (⟨function.nextBlock, label⟩, { function with nextBlock := function.nextBlock + 1 })

/-- The number of a new value. -/
def newValue (function : Function) : Nat × Function :=
  (function.nextValue, { function with nextValue := function.nextValue + 1 })

/-- A function with an empty entry block. -/
def ofSignature (name : Bytes) (params : List (Bytes × BasicType)) (result : BasicType) :
    Function :=
  let places := params.mapIdx fun index param => (⟨index, param.1, param.2⟩ : Place)
  let empty : Function :=
    { name, params := places, result, blocks := [], nextValue := places.length, nextBlock := 0,
      requests := [] }
  (empty.newBlock "entry").2

/-- The types of the parameters and of the result. -/
def signature (function : Function) : Signature :=
  { params := function.params.map Place.type, result := function.result }

/-- The block with a number. -/
def block? (function : Function) (id : Nat) : Option Block :=
  function.blocks.find? fun block => block.name.id == id

/-- The block with a label. -/
def labelled? (function : Function) (label : Bytes) : Option Block :=
  function.blocks.find? fun block => block.name.label == label

/-- Change the block with a number. -/
def modify (function : Function) (id : Nat) (change : Block → Block) : Function :=
  { function with
    blocks := function.blocks.map fun block => if block.name.id == id then change block else block }

/-- Put an instruction at the end of a block. -/
def append (function : Function) (id : Nat) (instr : Instr) : Function :=
  function.modify id fun block => { block with instrs := block.instrs ++ [instr] }

/-- Record that control may pass from one block to another.  An edge that is there already stays as
it is. -/
def addEdge (function : Function) (source target : BlockName) : Function :=
  match function.block? source.id with
  | none => function
  | some block =>
      if block.successors.any fun name => name.id == target.id then function
      else
        (function.modify source.id fun block =>
          { block with successors := block.successors ++ [target] }).modify target.id fun block =>
          { block with predecessors := block.predecessors ++ [source] }

/-- Forget that control may pass from one block to another. -/
def removeEdge (function : Function) (source target : BlockName) : Function :=
  (function.modify source.id fun block =>
    { block with successors := block.successors.filter fun name => name.id != target.id }).modify
    target.id fun block =>
    { block with predecessors := block.predecessors.filter fun name => name.id != source.id }

/-- Tell each block its place. -/
def renumber (function : Function) : Function :=
  { function with blocks := function.blocks.mapIdx fun index block => { block with index } }

/-- Whether the block with a number is open, that is, has no terminator yet. -/
def isOpen (function : Function) (id : Nat) : Bool :=
  match function.block? id with
  | some block => !block.isTerminated
  | none => false

/-- The instructions of a function, block by block. -/
def instrs (function : Function) : List Instr := function.blocks.flatMap Block.instrs

/-- A function as written. -/
def text (function : Function) : Bytes :=
  let param : Place → Bytes := fun place => place.paramText ++ ": " ++ place.type.name
  "func " ++ function.name ++ "(" ++ Bytes.join ", " (function.params.map param) ++ ") " ++
    function.result.name ++ " \x7b\n" ++
    Bytes.join "\n" (function.blocks.map Block.text) ++ "\x7d\n"

end Function

/-- A function that is defined elsewhere. -/
structure External where
  /-- Its name. -/
  name : Bytes
  /-- Its parameters and result. -/
  signature : Signature
  deriving DecidableEq, Repr

/-- The declaration of an external function as written. -/
def External.text (external : External) : Bytes :=
  "declare " ++ external.name ++ Bytes.dropStart "func" external.signature.text ++ "\n"

end ScriptCompiler.IR
