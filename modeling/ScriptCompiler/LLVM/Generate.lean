import ScriptCompiler.IR.Module
import ScriptCompiler.LLVM.Module

/-!
# Generating LLVM code

Functions become functions, block by block; stack slots are all made at the beginning of the entry
block, and copies leave no trace.  A truth value passed behind the fixed parameters of a function is
widened to an integer.
-/

namespace ScriptCompiler.LLVM

/-- What generation depends on. -/
structure Options where
  /-- The machine that the code is for. -/
  triple : Bytes := []
  /-- Whether a function `main` is added that calls the entry function of another name. -/
  mainWrapper : Bool := false
  deriving DecidableEq, Repr

/-- Why no code is generated. -/
inductive Fault where
  /-- A function has the name of a declared one. -/
  | conflict (name : Bytes)
  /-- A string constant that the module does not hold. -/
  | unknownText (name : Bytes)
  /-- A value without a definition so far. -/
  | undefined (value : Bytes)
  /-- A constant that holds nothing. -/
  | unsupportedConstant (value : Bytes) (type : BasicType)
  /-- A number without an operation on two operands. -/
  | unsupportedBinary (opcode : IR.BinaryOpcode)
  /-- A number without an operation on one operand. -/
  | unsupportedUnary (opcode : IR.UnaryOpcode)
  /-- A call of a function that the module does not know. -/
  | undeclared (name : Bytes)
  deriving DecidableEq, Repr

/-- What is said about a fault. -/
def Fault.message : Fault → Bytes
  | .conflict name => "function " ++ name ++ " conflicts with an external declaration"
  | .unknownText name => "unknown string constant @" ++ name
  | .undefined value => "value " ++ value ++ " used before definition"
  | .unsupportedConstant value type =>
      "unsupported constant " ++ value ++ " of type " ++ type.name
  | .unsupportedBinary opcode => "unsupported binary operator " ++ opcode.name
  | .unsupportedUnary opcode => "unsupported unary operator " ++ opcode.name
  | .undeclared name => "call to undeclared function " ++ name

/-- A use of operands that LLVM code cannot express at all. -/
inductive Misuse where
  /-- A store to what is no address. -/
  | storeAddress (type : LType)
  /-- A store of a value of another type than the address holds. -/
  | storeType (value address : LType)
  /-- A comparison of integers on something else. -/
  | icmpType (type : LType)
  /-- A comparison of doubles on something else. -/
  | fcmpType (type : LType)
  /-- A wrapper around an entry function that does not exist. -/
  | noEntry
  deriving DecidableEq, Repr

/-- The name of the class of a type. -/
def LType.className : LType → Bytes
  | .void => "*types.VoidType"
  | .int _ => "*types.IntType"
  | .double => "*types.FloatType"
  | .pointer _ => "*types.PointerType"

/-- What is said about a misuse, if anything. -/
def Misuse.message? : Misuse → Option Bytes
  | .storeAddress type =>
      some ("invalid store dst operand type; expected *types.Pointer, got " ++ type.className)
  | .storeType value address =>
      some ("store operands are not compatible: src=" ++ value.text ++ "; dst=" ++ address.text)
  | .icmpType type =>
      some ("invalid icmp operand type; expected *types.IntType, *types.PointerType or " ++
        "*types.VectorType, got " ++ type.className)
  | .fcmpType type =>
      some ("invalid fcmp operand type; expected *types.FloatType or *types.VectorType, got " ++
        type.className)
  | .noEntry => none

/-- How generation ends without code. -/
inductive Stop where
  /-- A fault in the function with a name, or in the module as a whole. -/
  | fault (function : Option Bytes) (fault : Fault)
  /-- A misuse of operands. -/
  | misuse (misuse : Misuse)
  deriving DecidableEq, Repr

/-- What is said when generation ends with a fault. -/
def Stop.message? : Stop → Option Bytes
  | .fault none cause => some cause.message
  | .fault (some function) cause => some ("function " ++ function ++ ": " ++ cause.message)
  | .misuse _ => none

/-- The surroundings of a function being generated. -/
structure Surroundings where
  /-- The module that is translated. -/
  module : IR.Module
  /-- Whether a wrapper for the entry function is added. -/
  wraps : Bool
  /-- The function that is translated. -/
  function : IR.Function

namespace Surroundings

/-- The name of a defined function in the code: with a wrapper, a user's own `main` makes room. -/
def symbol (wraps : Bool) (name : Bytes) : Bytes :=
  if wraps && name == Bytes.ofString "main" then "tss.main" else name

/-- The fault of the function that is translated. -/
def fail {α : Type} (env : Surroundings) (fault : Fault) : Except Stop α :=
  .error (.fault (some env.function.name) fault)

/-- The name and the type of a callee in the code. -/
def callee (env : Surroundings) (callee : IR.Callee) : Except Stop (Bytes × FunctionType) :=
  let typeOf : Signature → FunctionType := fun signature =>
    ⟨signature.params.map LType.ofBasic, LType.ofBasic signature.result, signature.variadic⟩
  match callee.linkage with
  | .defined =>
      match env.module.function? callee.name with
      | some function => .ok (symbol env.wraps function.name, typeOf function.signature)
      | none => env.fail (.undeclared callee.name)
  | .external =>
      match env.module.external? callee.name with
      | some external => .ok (external.name, typeOf external.signature)
      | none => env.fail (.undeclared callee.name)
  | .unknown => env.fail (.undeclared callee.name)

/-- The label of a block of the function. -/
def label (env : Surroundings) (name : IR.BlockName) : Option Bytes :=
  (env.function.block? name.id).map fun block => block.name.label

end Surroundings

/-- The course of generating a function. -/
structure Locals where
  /-- The operands that stand for the values so far, by the numbers of the values. -/
  operands : List (Nat × Operand)
  /-- The number of the next result. -/
  next : Nat := 0

/-- A step of generating a block: what it adds to the block. -/
abbrev Generate := StateT (Locals × List Inst) (Except Stop)

namespace Generate

/-- The number of a new result. -/
def fresh : Generate Nat :=
  modifyGet fun (locals, insts) => (locals.next, { locals with next := locals.next + 1 }, insts)

/-- Add an instruction to the block. -/
def emit (inst : Inst) : Generate Unit := modify fun (locals, insts) => (locals, insts ++ [inst])

/-- Let an operand stand for a value from now on. -/
def assign (id : Nat) (operand : Operand) : Generate Unit :=
  modify fun (locals, insts) =>
    ({ locals with operands := (id, operand) :: locals.operands }, insts)

/-- The operand that stands for a numbered value. -/
def lookup (env : Surroundings) (id : Nat) (text : Bytes) : Generate Operand := do
  match (← get).1.operands.lookup id with
  | some operand => return operand
  | none => env.fail (.undefined text)

/-- The operand that stands for a value. -/
def operand (env : Surroundings) : IR.Value → Generate Operand
  | .constant (.int value) => return .int value
  | .constant (.float value) => return .double value
  | .constant (.bool value) => return .bool value
  | .constant .nothing => env.fail (.unsupportedConstant IR.Constant.nothing.text .int)
  | .string index =>
      match env.module.strings[index]? with
      | some content => return .text (IR.stringName index) (content.length + 1)
      | none => env.fail (.unknownText (IR.stringName index))
  | .stray name => env.fail (.unknownText name)
  | .param place => lookup env place.id place.paramText
  | .slot place => lookup env place.id place.text
  | .temp result => lookup env result.id result.text

/-- Add an instruction with a numbered result of a type. -/
def define (type : LType) (inst : Nat → Inst) : Generate Operand := do
  let number ← fresh
  emit (inst number)
  return .result number type

/-- A misuse of operands ends generation. -/
def misuse {α : Type} (misuse : Misuse) : Generate α := throw (.misuse misuse)

/-- A comparison of integers or addresses. -/
def compareInts (predicate : IntPredicate) (left right : Operand) : Generate Operand := do
  match left.type with
  | .int _ | .pointer _ => define (.int 1) fun number => .icmp number predicate left right
  | type => misuse (.icmpType type)

/-- A comparison of doubles. -/
def compareFloats (predicate : FloatPredicate) (left right : Operand) : Generate Operand := do
  match left.type with
  | .double => define (.int 1) fun number => .fcmp number predicate left right
  | type => misuse (.fcmpType type)

/-- An operation on two operands; its result has the type of the left one. -/
def arithmetic (operation : Arithmetic) (left right : Operand) : Generate Operand :=
  define left.type fun number => .arithmetic number operation left right

/-- The operation on two operands that a code stands for. -/
def binary (env : Surroundings) (opcode : IR.BinaryOpcode) (left right : Operand) :
    Generate Operand :=
  match opcode with
  | .add => arithmetic .add left right
  | .sub => arithmetic .sub left right
  | .mul => arithmetic .mul left right
  | .div => arithmetic .sdiv left right
  | .mod => arithmetic .srem left right
  | .fadd => arithmetic .fadd left right
  | .fsub => arithmetic .fsub left right
  | .fmul => arithmetic .fmul left right
  | .fdiv => arithmetic .fdiv left right
  | .fmod => arithmetic .frem left right
  | .eq => compareInts .eq left right
  | .ne => compareInts .ne left right
  | .lt => compareInts .slt left right
  | .le => compareInts .sle left right
  | .gt => compareInts .sgt left right
  | .ge => compareInts .sge left right
  | .feq => compareFloats .oeq left right
  | .fne => compareFloats .one left right
  | .flt => compareFloats .olt left right
  | .fle => compareFloats .ole left right
  | .fgt => compareFloats .ogt left right
  | .fge => compareFloats .oge left right
  | .unlisted _ => env.fail (.unsupportedBinary opcode)

/-- The operation on one operand that a code stands for. -/
def unary (env : Surroundings) (opcode : IR.UnaryOpcode) (operand : Operand) : Generate Operand :=
  match opcode with
  | .neg => arithmetic .sub (.int 0) operand
  | .fneg => define operand.type fun number => .fneg number operand
  | .not => arithmetic .xor operand (.bool true)
  | .unlisted _ => env.fail (.unsupportedUnary opcode)

/-- The arguments of a call, of which the first `fixed` belong to parameters. -/
def arguments (env : Surroundings) : Nat → List IR.Value → Generate (List Operand)
  | _, [] => return []
  | fixed, value :: rest => do
      let plain ← operand env value
      let passed ←
        if fixed == 0 && value.type == .bool then
          define (.int 32) fun number => .zext number plain (.int 32)
        else pure plain
      let others ← arguments env (fixed - 1) rest
      return passed :: others

/-- The code of an instruction.  A terminator is the answer. -/
def instr (env : Surroundings) : IR.Instr → Generate (Option Terminator)
  | .alloca _ => return none
  | .copy dest value => do
      assign dest.id (← operand env value)
      return none
  | .load dest address => do
      let place ← operand env address
      let type := LType.ofBasic dest.type
      assign dest.id (← define type fun number => .load number type place)
      return none
  | .store address value => do
      let place ← operand env address
      let content ← operand env value
      match place.type with
      | .pointer type =>
          if content.type != type then misuse (.storeType content.type place.type)
          emit (.store content place)
          return none
      | type => misuse (.storeAddress type)
  | .binary opcode dest left right => do
      let first ← operand env left
      let second ← operand env right
      assign dest.id (← binary env opcode first second)
      return none
  | .unary opcode dest value => do
      assign dest.id (← unary env opcode (← operand env value))
      return none
  | .call dest callee values => do
      let (name, type) ← env.callee callee
      let passed ← arguments env type.params.length values
      let number ← if type.result == .void then pure none else some <$> fresh
      emit (.call number name type passed)
      match dest with
      | some result => assign result.id (.result (number.getD 0) type.result)
      | none => pure ()
      return none
  | .jump target => return some (.br (env.label target))
  | .branch condition ifTrue ifFalse => do
      let value ← operand env condition
      return some (.condBr value (env.label ifTrue) (env.label ifFalse))
  | .ret none => return some (.ret none)
  | .ret (some value) => do
      return some (.ret (some (← operand env value)))

/-- The code of the instructions of a block; the last terminator ends it. -/
def instrs (env : Surroundings) (last : Option Terminator) :
    List IR.Instr → Generate (Option Terminator)
  | [] => return last
  | first :: rest => do
      let terminator ← instr env first
      instrs env (terminator.or last) rest

end Generate

/-- The name of the slot of a variable in the code. -/
def slotName (place : IR.Place) : Bytes := place.name ++ ".addr" ++ Bytes.ofNat place.id

/-- The name of a parameter in the code. -/
def paramName (place : IR.Place) : Bytes := "arg." ++ place.name

/-- The stack slots of a function in order. -/
def slots (function : IR.Function) : List IR.Place :=
  function.instrs.filterMap fun instr =>
    match instr with
    | .alloca slot => some slot
    | _ => none

/-- The code of blocks, one after the other; each begins with the given instructions. -/
def blocks (env : Surroundings) (locals : Locals) (start : List Inst) :
    List IR.Block → Except Stop (List Block)
  | [] => .ok []
  | block :: rest => do
      let unnamed := block.name.label.isEmpty
      let first := if unnamed then { locals with next := locals.next + 1 } else locals
      let (terminator, last, insts) ← (Generate.instrs env none block.instrs).run (first, start)
      let others ← blocks env last [] rest
      return { label := block.name.label, number := locals.next, insts, terminator } :: others

/-- The code of a function. -/
def function (module : IR.Module) (wraps : Bool) (source : IR.Function) : Except Stop Function := do
  let params := source.params.map fun place =>
    (place.id, Operand.param (paramName place) (LType.ofBasic place.type))
  let places := slots source
  let addresses := places.map fun place =>
    (place.id, Operand.slot (slotName place) (LType.ofBasic place.type))
  let allocas := places.map fun place => Inst.alloca (slotName place) (LType.ofBasic place.type)
  let body ← blocks ⟨module, wraps, source⟩ { operands := addresses ++ params } allocas
    source.blocks
  return {
    name := Surroundings.symbol wraps source.name
    params := source.params.map fun place => (paramName place, LType.ofBasic place.type)
    result := LType.ofBasic source.result
    blocks := body }

/-- The function `main` that calls the entry function and returns its integer, or zero. -/
def mainWrapper (wraps : Bool) (entry : IR.Function) : Function :=
  let type : FunctionType :=
    ⟨entry.params.map fun place => LType.ofBasic place.type, LType.ofBasic entry.result, false⟩
  let number := if entry.result == .void then none else some 0
  let result := if entry.result == .int then Operand.result 0 (.int 32) else .int 0
  { name := "main"
    params := []
    result := .int 32
    blocks :=
      [{ label := "entry"
         insts := [.call number (Surroundings.symbol wraps entry.name) type []]
         terminator := some (.ret (some result)) }] }

/-- Whether a wrapper is added. -/
def wrapsEntry (options : Options) (module : IR.Module) : Bool :=
  options.mainWrapper && !module.entry.isEmpty && module.entry != Bytes.ofString "main"

/-- The LLVM code of a module. -/
def generate (options : Options) (module : IR.Module) : Except Stop Module := do
  match module.externals.find? fun external => (module.function? external.name).isSome with
  | some external => throw (.fault none (.conflict external.name))
  | none => pure ()
  let wraps := wrapsEntry options module
  let functions ← module.functions.mapM (function module wraps)
  let wrapper ←
    if wraps then
      match module.function? module.entry with
      | some entry => pure [mainWrapper wraps entry]
      | none => throw (.misuse .noEntry)
    else pure []
  return {
    source := module.name
    triple := options.triple
    texts := module.strings.zipIdx.map fun (content, index) =>
      ⟨IR.stringName index, content ++ [0]⟩
    declarations := module.externals.map fun external =>
      ⟨external.name,
        ⟨external.signature.params.map LType.ofBasic, LType.ofBasic external.signature.result,
          external.signature.variadic⟩⟩
    functions := functions ++ wrapper }

end ScriptCompiler.LLVM
