import ScriptCompiler.IR.Module

/-!
# String constants at other places

A function refers to the string constants of its module by their places in the list.  Here a
function is carried over to a module that has its constants at other places; nothing else about it
changes, so this commutes with every way in which functions grow.
-/

namespace ScriptCompiler.IR

variable {place : Nat → Nat}

/-- The value, with string constants at other places. -/
def Value.relocated (place : Nat → Nat) : Value → Value
  | .string index => .string (place index)
  | value => value

@[simp]
theorem Value.type_relocated (value : Value) : (value.relocated place).type = value.type := by
  cases value <;> rfl

/-- The instruction, with string constants at other places. -/
def Instr.relocated (place : Nat → Nat) : Instr → Instr
  | .binary opcode dest left right =>
      .binary opcode dest (left.relocated place) (right.relocated place)
  | .unary opcode dest operand => .unary opcode dest (operand.relocated place)
  | .copy dest value => .copy dest (value.relocated place)
  | .alloca slot => .alloca slot
  | .load dest address => .load dest (address.relocated place)
  | .store address value => .store (address.relocated place) (value.relocated place)
  | .call dest callee arguments => .call dest callee (arguments.map (Value.relocated place))
  | .jump target => .jump target
  | .branch condition ifTrue ifFalse => .branch (condition.relocated place) ifTrue ifFalse
  | .ret value => .ret (value.map (Value.relocated place))

@[simp]
theorem Instr.isTerminator_relocated (instr : Instr) :
    (instr.relocated place).isTerminator = instr.isTerminator := by
  cases instr <;> rfl

/-- The block, with string constants at other places. -/
def Block.relocated (place : Nat → Nat) (block : Block) : Block :=
  { block with instrs := block.instrs.map (Instr.relocated place) }

@[simp]
theorem Block.name_relocated (block : Block) : (block.relocated place).name = block.name := rfl

@[simp]
theorem Block.isTerminated_relocated (block : Block) :
    (block.relocated place).isTerminated = block.isTerminated := by
  simp only [isTerminated, terminator?, relocated, List.getLast?_map]
  cases block.instrs.getLast? with
  | none => rfl
  | some instr =>
      simp only [Option.map_some, Option.filter_some, Instr.isTerminator_relocated]
      split <;> rfl

namespace Function

variable {function : Function}

/-- The function, with string constants at other places. -/
def relocated (place : Nat → Nat) (function : Function) : Function :=
  { function with blocks := function.blocks.map (Block.relocated place) }

@[simp]
theorem name_relocated : (function.relocated place).name = function.name := rfl

@[simp]
theorem result_relocated : (function.relocated place).result = function.result := rfl

theorem block?_relocated (id : Nat) :
    (function.relocated place).block? id = (function.block? id).map (Block.relocated place) := by
  rw [block?, relocated, List.find?_map]
  rfl

@[simp]
theorem isOpen_relocated (id : Nat) :
    (function.relocated place).isOpen id = function.isOpen id := by
  rw [isOpen, isOpen, block?_relocated]
  cases function.block? id with
  | none => rfl
  | some block => simp

theorem modify_relocated {id : Nat} {change change' : Block → Block}
    (commutes : ∀ block, change' (block.relocated place) = (change block).relocated place) :
    (function.relocated place).modify id change' = (function.modify id change).relocated place := by
  simp only [modify, relocated, List.map_map]
  congr 2
  funext block
  by_cases here : (block.name.id == id) = true
  · simp only [Function.comp_apply, Block.name_relocated, here, if_true, commutes]
  · simp only [Function.comp_apply, Block.name_relocated, here, Bool.false_eq_true, if_false]

theorem append_relocated (id : Nat) (instr : Instr) :
    (function.relocated place).append id (instr.relocated place) =
      (function.append id instr).relocated place :=
  modify_relocated fun block => by simp [Block.relocated]

theorem addEdge_relocated (source target : BlockName) :
    (function.relocated place).addEdge source target =
      (function.addEdge source target).relocated place := by
  rw [addEdge, addEdge, block?_relocated]
  cases function.block? source.id with
  | none => rfl
  | some block =>
      simp only [Option.map_some, Block.relocated]
      split
      · rfl
      · have left : ((function.relocated place).modify source.id fun block =>
            { block with successors := block.successors ++ [target] }) =
            (function.modify source.id fun block =>
              { block with successors := block.successors ++ [target] }).relocated place :=
          modify_relocated fun _ => rfl
        rw [left]
        exact modify_relocated fun _ => rfl

theorem newBlock_relocated (label : Bytes) :
    (function.relocated place).newBlock label =
      ((function.newBlock label).1, (function.newBlock label).2.relocated place) := by
  simp [newBlock, relocated, freshLabel, Block.relocated]

@[simp]
theorem ofSignature_relocated (name : Bytes) (params : List (Bytes × BasicType))
    (result : BasicType) :
    (ofSignature name params result).relocated place = ofSignature name params result := by
  simp [ofSignature, newBlock, relocated, Block.relocated]

end Function

end ScriptCompiler.IR
