import ScriptCompiler.LLVM.Value

/-!
# LLVM modules

Generated code as data, and the text of LLVM assembly that spells it.  Results are numbered from
zero in the order in which they are written.
-/

namespace ScriptCompiler.LLVM

/-- An operation on two operands. -/
inductive Arithmetic where
  | add
  | sub
  | mul
  | sdiv
  | srem
  | fadd
  | fsub
  | fmul
  | fdiv
  | frem
  | xor
  deriving DecidableEq, Repr

/-- The word for an operation. -/
def Arithmetic.word : Arithmetic → Bytes
  | .add => "add"
  | .sub => "sub"
  | .mul => "mul"
  | .sdiv => "sdiv"
  | .srem => "srem"
  | .fadd => "fadd"
  | .fsub => "fsub"
  | .fmul => "fmul"
  | .fdiv => "fdiv"
  | .frem => "frem"
  | .xor => "xor"

/-- A comparison of integers. -/
inductive IntPredicate where
  | eq
  | ne
  | slt
  | sle
  | sgt
  | sge
  deriving DecidableEq, Repr

/-- The word for a comparison of integers. -/
def IntPredicate.word : IntPredicate → Bytes
  | .eq => "eq"
  | .ne => "ne"
  | .slt => "slt"
  | .sle => "sle"
  | .sgt => "sgt"
  | .sge => "sge"

/-- An ordered comparison of doubles. -/
inductive FloatPredicate where
  | oeq
  | one
  | olt
  | ole
  | ogt
  | oge
  deriving DecidableEq, Repr

/-- The word for a comparison of doubles. -/
def FloatPredicate.word : FloatPredicate → Bytes
  | .oeq => "oeq"
  | .one => "one"
  | .olt => "olt"
  | .ole => "ole"
  | .ogt => "ogt"
  | .oge => "oge"

/-- The type of a function. -/
structure FunctionType where
  /-- The types of the parameters. -/
  params : List LType
  /-- The type of the result. -/
  result : LType
  /-- Whether further arguments may follow. -/
  variadic : Bool := false
  deriving DecidableEq, Repr

/-- The type of a function as written in a call. -/
def FunctionType.text (type : FunctionType) : Bytes :=
  let parts := type.params.map LType.text ++ if type.variadic then [Bytes.ofString "..."] else []
  type.result.text ++ " (" ++ Bytes.join ", " parts ++ ")"

/-- An instruction that ends no block. -/
inductive Inst where
  /-- A stack slot. -/
  | alloca (name : Bytes) (content : LType)
  /-- The content at an address. -/
  | load (number : Nat) (content : LType) (address : Operand)
  /-- A new content at an address. -/
  | store (value address : Operand)
  /-- An operation on two operands. -/
  | arithmetic (number : Nat) (operation : Arithmetic) (left right : Operand)
  /-- A comparison of integers. -/
  | icmp (number : Nat) (predicate : IntPredicate) (left right : Operand)
  /-- A comparison of doubles. -/
  | fcmp (number : Nat) (predicate : FloatPredicate) (left right : Operand)
  /-- The negative of a double. -/
  | fneg (number : Nat) (operand : Operand)
  /-- An integer widened with zeros. -/
  | zext (number : Nat) (operand : Operand) (target : LType)
  /-- A call, numbered unless it has no result. -/
  | call (number : Option Nat) (callee : Bytes) (type : FunctionType) (arguments : List Operand)

namespace Inst

/-- The numbered result on the left of an instruction. -/
def dest (number : Nat) : Bytes := "%" ++ Bytes.ofNat number ++ " = "

/-- An instruction as written. -/
def text : Inst → Bytes
  | .alloca name content => "%" ++ nameText name ++ " = alloca " ++ content.text
  | .load number content address =>
      dest number ++ "load " ++ content.text ++ ", " ++ address.typed
  | .store value address => "store " ++ value.typed ++ ", " ++ address.typed
  | .arithmetic number operation left right =>
      dest number ++ operation.word ++ " " ++ left.typed ++ ", " ++ right.name
  | .icmp number predicate left right =>
      dest number ++ "icmp " ++ predicate.word ++ " " ++ left.typed ++ ", " ++ right.name
  | .fcmp number predicate left right =>
      dest number ++ "fcmp " ++ predicate.word ++ " " ++ left.typed ++ ", " ++ right.name
  | .fneg number operand => dest number ++ "fneg " ++ operand.typed
  | .zext number operand target => dest number ++ "zext " ++ operand.typed ++ " to " ++ target.text
  | .call number callee type arguments =>
      (match number with
        | some result => dest result
        | none => []) ++
        "call " ++ (if type.variadic then type.text else type.result.text) ++ " @" ++
        nameText callee ++ "(" ++ Bytes.join ", " (arguments.map Operand.typed) ++ ")"

end Inst

/-- The end of a block.  A target is a label of the function; a jump out of it has none. -/
inductive Terminator where
  /-- Go on in a block. -/
  | br (target : Option Bytes)
  /-- Go on in one of two blocks. -/
  | condBr (condition : Operand) (ifTrue ifFalse : Option Bytes)
  /-- Leave the function. -/
  | ret (value : Option Operand)

namespace Terminator

/-- The targets of a terminator. -/
def targets : Terminator → List (Option Bytes)
  | .br target => [target]
  | .condBr _ ifTrue ifFalse => [ifTrue, ifFalse]
  | .ret _ => []

end Terminator

/-- A basic block.  A block with an empty label is numbered like a result. -/
structure Block where
  /-- The label. -/
  label : Bytes
  /-- The number of a block with an empty label. -/
  number : Nat := 0
  /-- The instructions before the end. -/
  insts : List Inst
  /-- The end. -/
  terminator : Option Terminator

/-- The label of a block as written. -/
def Block.labelText (block : Block) : Bytes :=
  if block.label.isEmpty then Bytes.ofNat block.number else nameText block.label

/-- A function with a body. -/
structure Function where
  /-- The name. -/
  name : Bytes
  /-- The parameters in order, with their types. -/
  params : List (Bytes × LType)
  /-- The type of the result. -/
  result : LType
  /-- The blocks, the entry first. -/
  blocks : List Block

namespace Function

/-- A reference to a label as written. -/
def labelRef (function : Function) (label : Option Bytes) : Bytes :=
  match label with
  | none => "label %"
  | some name =>
      match function.blocks.find? fun block => block.label == name with
      | some block => "label %" ++ block.labelText
      | none => "label %" ++ nameText name

/-- The end of a block as written. -/
def terminatorText (function : Function) : Terminator → Bytes
  | .br target => "br " ++ function.labelRef target
  | .condBr condition ifTrue ifFalse =>
      "br " ++ condition.typed ++ ", " ++ function.labelRef ifTrue ++ ", " ++
        function.labelRef ifFalse
  | .ret none => "ret void"
  | .ret (some value) => "ret " ++ value.typed

/-- The label and the instructions of a block as written. -/
def blockStart (block : Block) : Bytes :=
  let line : Inst → Bytes := fun inst => "\t" ++ inst.text ++ "\n"
  block.labelText ++ ":\n" ++ block.insts.flatMap line

/-- A block as written. -/
def blockText (function : Function) (block : Block) : Bytes :=
  blockStart block ++
    match block.terminator with
    | some terminator => "\t" ++ function.terminatorText terminator ++ "\n"
    | none => []

/-- A function as written. -/
def text (function : Function) : Bytes :=
  let param : Bytes × LType → Bytes := fun (name, type) => type.text ++ " %" ++ nameText name
  "define " ++ function.result.text ++ " @" ++ nameText function.name ++ "(" ++
    Bytes.join ", " (function.params.map param) ++ ") \x7b\n" ++
    Bytes.join "\n" (function.blocks.map function.blockText) ++ "\x7d"

end Function

/-- A function that is defined elsewhere. -/
structure Declaration where
  /-- The name. -/
  name : Bytes
  /-- The parameters and the result. -/
  type : FunctionType
  deriving DecidableEq, Repr

/-- A declaration as written; its parameters are numbered. -/
def Declaration.text (declaration : Declaration) : Bytes :=
  let param : LType × Nat → Bytes := fun (type, index) => type.text ++ " %" ++ Bytes.ofNat index
  let parts := declaration.type.params.zipIdx.map param ++
    if declaration.type.variadic then [Bytes.ofString "..."] else []
  "declare " ++ declaration.type.result.text ++ " @" ++ nameText declaration.name ++ "(" ++
    Bytes.join ", " parts ++ ")"

/-- A string constant: its name and its bytes. -/
structure Text where
  /-- The name. -/
  name : Bytes
  /-- The bytes, the final zero included. -/
  content : Bytes
  deriving DecidableEq, Repr

/-- A string constant as written. -/
def Text.text (constant : Text) : Bytes :=
  "@" ++ nameText constant.name ++ " = private constant [" ++ Bytes.ofNat constant.content.length ++
    " x i8] c" ++ quoted constant.content ++ "\n"

/-- A module. -/
structure Module where
  /-- The name of its source. -/
  source : Bytes
  /-- The machine that it is for. -/
  triple : Bytes
  /-- The string constants. -/
  texts : List Text
  /-- The declared functions. -/
  declarations : List Declaration
  /-- The defined functions. -/
  functions : List Function

namespace Module

/-- A module as written: parts that are there, with an empty line between neighbours. -/
def text (module : Module) : Bytes :=
  let header :=
    Bytes.onlyIf (!module.source.isEmpty) ("source_filename = " ++ quoted module.source ++ "\n") ++
      Bytes.onlyIf (!module.triple.isEmpty) ("target triple = " ++ quoted module.triple ++ "\n")
  let functionTexts :=
    module.declarations.map Declaration.text ++ module.functions.map Function.text
  let functions := Bytes.onlyIf (!functionTexts.isEmpty) (Bytes.join "\n\n" functionTexts ++ "\n")
  Bytes.join "\n"
    ([header, module.texts.flatMap Text.text, functions].filter fun part => !part.isEmpty)

/-- The names of the functions that a module defines. -/
def symbols (module : Module) : List Bytes := module.functions.map Function.name

end Module

/-- Why a module has no text. -/
inductive Defect where
  /-- A block has no end. -/
  | unterminated (label : Bytes) (start : Bytes)
  /-- A jump leads out of its function. -/
  | strayJump
  deriving DecidableEq, Repr

/-- What is said about a defect, if anything. -/
def Defect.message? : Defect → Option Bytes
  | .unterminated label start =>
      some ("missing terminator in basic block " ++ Quoted.text label ++
        ".\ncurrent instructions:\n" ++ start)
  | .strayJump => none

/-- The defect of a block. -/
def Block.defect? (block : Block) : Option Defect :=
  match block.terminator with
  | none => some (.unterminated block.label (Function.blockStart block))
  | some terminator => if terminator.targets.any Option.isNone then some .strayJump else none

/-- The first defect of a module in the order in which it is written. -/
def Module.defect? (module : Module) : Option Defect :=
  (module.functions.flatMap Function.blocks).findSome? Block.defect?

end ScriptCompiler.LLVM
