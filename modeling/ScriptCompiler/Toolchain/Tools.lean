import ScriptCompiler.LLVM.Listing
import ScriptCompiler.Toolchain.Workspace

/-!
# The tools of the compiler

How the four external tools are called: the optimizer, the code generator, the linker and the
interpreter, and what their replies mean.
-/

namespace ScriptCompiler

/-- The machine that code is generated for. -/
structure Target where
  /-- The name of the kind of machine; the tools choose when it is empty. -/
  triple : Bytes
  /-- The model of the processor; the tools choose when it is empty. -/
  cpu : Bytes := []
  deriving DecidableEq, Repr

/-- The kind of machine that the compiler itself runs on. -/
def Target.hostTriple : Bytes := "x86_64-unknown-linux-gnu"

/-- The names of the tools. -/
structure Toolchain where
  /-- The optimizer. -/
  optimizer : Bytes := "opt"
  /-- The code generator. -/
  generator : Bytes := "llc"
  /-- The interpreter. -/
  interpreter : Bytes := "lli"
  /-- The linker. -/
  linker : Bytes := "cc"
  /-- Whether what an interpreted program writes to the stream for errors is passed on. -/
  forwardsErrors : Bool := true
  deriving DecidableEq, Repr

/-- The kind of machine code that is generated. -/
inductive CodeForm where
  /-- An object file. -/
  | object
  /-- Assembly. -/
  | assembly
  deriving DecidableEq, Repr

/-- The word for a kind of machine code. -/
def CodeForm.word : CodeForm → Bytes
  | .object => "obj"
  | .assembly => "asm"

namespace Toolchain

/-- Call a tool for its result. -/
def resultOf (request : ToolCall) : Job Bytes := do
  Job.log .debug "running tool"
    [("tool", request.tool), ("args", Bytes.join " " request.arguments)]
  let reply ← Job.call request
  match reply.fault with
  | none => return reply.output
  | some fault =>
      throw {
        message := request.tool ++ " failed: " ++ fault.message request.tool ++ ", stderr: " ++
          Bytes.trim reply.errors
        exitStatus := fault.status? }

/-- The listing at an optimization level; at the lowest level it stays as it is. -/
def optimize (toolchain : Toolchain) (level : Int) (listing : LLVM.Listing) : Job LLVM.Listing := do
  if level < 0 || 3 < level then
    throw (.plain ("optimization level " ++ Bytes.ofInt level ++ " out of range 0-3"))
  if level = 0 then return listing
  let text ← resultOf
    ⟨toolchain.optimizer, ["-S", "-O" ++ Bytes.ofInt level, "-o", "-", "-"], listing.text⟩
  return { listing with text }

/-- The arguments that name a target to the code generator. -/
def targetArguments (target : Target) : List Bytes :=
  (if target.triple.isEmpty then [] else ["-mtriple=" ++ target.triple]) ++
    if target.cpu.isEmpty then [] else ["-mcpu=" ++ target.cpu]

/-- The machine code of a listing. -/
def generate (toolchain : Toolchain) (form : CodeForm) (target : Target) (listing : LLVM.Listing) :
    Job Bytes :=
  let streams : List Bytes := ["-o", "-", "-"]
  resultOf ⟨toolchain.generator,
    ("-filetype=" ++ form.word) :: (targetArguments target ++ streams), listing.text⟩

/-- Link an object file, which is in the scratch directory meanwhile, into an executable. -/
def link (toolchain : Toolchain) (output : Bytes) : Job Unit := do
  let object := (← get).scratch ++ "/out.o"
  let _ ← resultOf ⟨toolchain.linker, [object, "-o", output], []⟩

end Toolchain

/-- A listing that is ready to be interpreted. -/
structure Engine where
  /-- The tools. -/
  toolchain : Toolchain
  /-- The listing. -/
  listing : LLVM.Listing
  /-- The machine. -/
  target : Target
  deriving DecidableEq, Repr

namespace Engine

/-- Prepare a listing, unless the run has been cancelled. -/
def prepare (toolchain : Toolchain) (target : Target) (listing : LLVM.Listing) : Job Engine := do
  if (← get).cancelled then throw (.plain cancellation)
  return ⟨toolchain, listing, target⟩

/-- Whether the interpreter itself complains in a text, rather than the program it runs: a line
starts with the name of the interpreter, or announces a stack dump. -/
def isComplaint (interpreter text : Bytes) : Bool :=
  (Bytes.splitOn 0x0A text).any fun line =>
    let content := Bytes.trim line
    (Path.base interpreter ++ ":").isPrefixOf content ||
      (Bytes.ofString "Stack dump:").isPrefixOf content

/-- What keeps a status from being the result of the function `name`: a signal, or a complaint of
the interpreter. -/
def exception? (engine : Engine) (name : Bytes) (status : Int) (errors : Bytes) : Option Bytes :=
  let said := Bytes.trim errors
  if status < 0 then
    some (name ++ " was terminated by a signal" ++ Bytes.onlyIf (!said.isEmpty) (": " ++ said))
  else if isComplaint engine.toolchain.interpreter said then
    some (name ++ " exited with status " ++ Bytes.ofInt status ++ ": " ++ said)
  else none

/-- The failure of a function that ended with a status. -/
def failure (engine : Engine) (name : Bytes) (status : Int) (details : Bytes) : Failure :=
  let report : Diagnostic :=
    { category := .runtimeException, details, position := {}, origin := ⟨engine.listing.name, name⟩
      cause := some ((ToolFault.exited status).message engine.toolchain.interpreter) }
  { Failure.ofDiagnostic report with exitStatus := some status }

/-- Run a function of the listing that has no parameters.  The exit status of the interpreter is the
result of the function. -/
def run (engine : Engine) (name : Bytes) : Job Int := do
  if !engine.listing.defines name then
    throw (.plain ("function " ++ name ++ " is not defined in " ++ engine.listing.name))
  Job.log .debug "executing" [("module", engine.listing.name), ("entry", name)]
  let interpreter := engine.toolchain.interpreter
  let machine : List Bytes :=
    if engine.target.triple.isEmpty then ["-"] else ["-mtriple=" ++ engine.target.triple, "-"]
  let reply ← Job.call
    ⟨interpreter, ("--entry-function=" ++ name) :: machine, engine.listing.text⟩
  modify fun workspace => workspace.print reply.output
  if engine.toolchain.forwardsErrors then
    modify fun workspace => workspace.complain reply.errors
  match reply.fault with
  | none => return 0
  | some (.exited status) =>
      match engine.exception? name status reply.errors with
      | some details => throw (engine.failure name status details)
      | none => return status
  | some fault => throw (.plain (interpreter ++ " failed: " ++ fault.message interpreter))

end Engine

end ScriptCompiler
