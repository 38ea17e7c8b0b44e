import ScriptCompiler.IR.Function
import ScriptCompiler.Text.Quoted

/-!
# Modules

A module is a compilation unit: functions with bodies, declarations of external functions and
string constants.  `Module.violations` lists what is ill formed in it.
-/

namespace ScriptCompiler.IR

/-- A compilation unit. -/
structure Module where
  /-- Its name. -/
  name : Bytes
  /-- The functions with bodies. -/
  functions : List Function := []
  /-- The declared functions. -/
  externals : List External := []
  /-- The string constants. -/
  strings : List Bytes := []
  /-- The name of the function that execution starts at. -/
  entry : Bytes := []

namespace Module

/-- The first function with a name. -/
def function? (module : Module) (name : Bytes) : Option Function :=
  module.functions.find? fun function => function.name == name

/-- The declaration with a name. -/
def external? (module : Module) (name : Bytes) : Option External :=
  module.externals.find? fun external => external.name == name

/-- Whether a callee is a function that the module defines or declares. -/
def knows (module : Module) (callee : Callee) : Bool :=
  match callee.linkage with
  | .defined => (module.function? callee.name).isSome
  | .external => (module.external? callee.name).isSome
  | .unknown => false

/-- A module as written. -/
def text (module : Module) : Bytes :=
  let stringLine : Bytes × Nat → Bytes := fun (content, index) =>
    "@" ++ stringName index ++ " = " ++ Quoted.text content ++ "\n"
  "; Module: " ++ module.name ++ "\n" ++
    Bytes.onlyIf (!module.entry.isEmpty) ("; Entry: " ++ module.entry ++ "\n") ++ "\n" ++
    Bytes.onlyIf (!module.strings.isEmpty) (module.strings.zipIdx.flatMap stringLine ++ "\n") ++
    Bytes.onlyIf (!module.externals.isEmpty)
      (module.externals.flatMap External.text ++ "\n") ++
    Bytes.join "\n" (module.functions.map Function.text)

end Module

/-- Declare an external function: a name that is declared already keeps its declaration. -/
def declareExternal (externals : List External) (external : External) : List External :=
  if externals.any fun known => known.name == external.name then externals
  else externals ++ [external]

/-- The place of a string constant in a list, and the list with the constant in it. -/
def internString (strings : List Bytes) (content : Bytes) : Nat × List Bytes :=
  if strings.contains content then (strings.idxOf content, strings)
  else (strings.length, strings ++ [content])

/-- A way in which a module is ill formed. -/
inductive Violation where
  /-- The function that execution starts at does not exist. -/
  | noEntry (entry : Bytes)
  /-- A block has no terminator. -/
  | unterminated (function label : Bytes)
  /-- A block has a terminator before its end. -/
  | earlyTerminator (function label : Bytes)
  /-- A jump leaves its function. -/
  | strayJump (function : Bytes)
  /-- A branch leaves its function. -/
  | strayBranch (function : Bytes)
  /-- A call names a function that the module does not know. -/
  | unknownCallee (function callee : Bytes)
  /-- Control can come back to an entry block. -/
  | entryPredecessors (function : Bytes)
  deriving DecidableEq, Repr

/-- What a violation says. -/
def Violation.message : Violation → Bytes
  | .noEntry entry => "entry function " ++ entry ++ " is not defined"
  | .unterminated function label =>
      "block " ++ label ++ " in function " ++ function ++ " has no terminator"
  | .earlyTerminator function label =>
      "block " ++ label ++ " in function " ++ function ++ " has a terminator before its end"
  | .strayJump function => "jump in " ++ function ++ " targets a block outside the function"
  | .strayBranch function => "branch in " ++ function ++ " targets a block outside the function"
  | .unknownCallee function callee => "call in " ++ function ++ " to unknown function " ++ callee
  | .entryPredecessors function => "entry block of function " ++ function ++ " has predecessors"

namespace Function

/-- Whether a block belongs to the function. -/
def owns (function : Function) (name : BlockName) : Bool := (function.block? name.id).isSome

/-- What is wrong about an instruction on its own, in a module that knows the callees `known`. -/
def instrViolations (function : Function) (known : Callee → Bool) : Instr → List Violation
  | .jump target => if function.owns target then [] else [.strayJump function.name]
  | .branch _ ifTrue ifFalse =>
      if function.owns ifTrue && function.owns ifFalse then [] else [.strayBranch function.name]
  | .call _ callee _ =>
      if known callee then [] else [.unknownCallee function.name callee.name]
  | _ => []

/-- What is wrong about the instructions of a block, from the first one to the last. -/
def bodyViolations (function : Function) (known : Callee → Bool) (label : Bytes) :
    List Instr → List Violation
  | [] => []
  | instr :: rest =>
      (if !rest.isEmpty && instr.isTerminator then [.earlyTerminator function.name label]
        else []) ++ function.instrViolations known instr ++ bodyViolations function known label rest

/-- What is wrong about a block. -/
def blockViolations (function : Function) (known : Callee → Bool) (block : Block) :
    List Violation :=
  (if block.isTerminated then [] else [.unterminated function.name block.name.label]) ++
    function.bodyViolations known block.name.label block.instrs

/-- What is wrong about a function. -/
def violations (function : Function) (known : Callee → Bool) : List Violation :=
  function.blocks.flatMap (function.blockViolations known) ++
    match function.block? entry with
    | some block => if block.predecessors.isEmpty then [] else [.entryPredecessors function.name]
    | none => []

end Function

/-- All that is wrong about a module. -/
def Module.violations (module : Module) : List Violation :=
  (if module.entry.isEmpty || (module.function? module.entry).isSome then []
    else [.noEntry module.entry]) ++
    module.functions.flatMap fun function => function.violations module.knows

end ScriptCompiler.IR
