import ScriptCompiler.CommandLine.Flags
import ScriptCompiler.CommandLine.History
import ScriptCompiler.Dialogue

/-!
# The command line

What the program does with its arguments: it compiles or runs a file, or leads a dialogue.  All it
depends on is the workspace and the text of the standard input.
-/

namespace ScriptCompiler.CommandLine

/-- The dumps that can be asked for. -/
def dumpKeys : List (Bytes × OptionKey) :=
  [("tokens", .dumpTokens), ("ast", .dumpAst), ("ir", .dumpIr), ("asm", .dumpAsm)]

/-- The options with dumps asked for. -/
def askDumps (options : CompilerOptions) : List Bytes → Except Bytes CompilerOptions
  | [] => .ok options
  | dump :: rest =>
      match dumpKeys.lookup dump with
      | some key => askDumps ((options.set? key (.flag true)).getD options) rest
      | none => .error ("unknown dump " ++ Quoted.text dump ++ ": want tokens, ast, ir or asm")

/-- The options with the values of flags over those of the configuration. -/
def FlagValues.override (values : FlagValues) (options : CompilerOptions) :
    Except Bytes CompilerOptions := do
  let asked ← askDumps options values.dumps
  return { asked with
    optimize := asked.optimize && !values.noOptimization
    executeImmediately := asked.executeImmediately || values.run
    entryPolicy := values.entryPolicy.getD asked.entryPolicy
    logLevel := if values.verbose then "debug" else asked.logLevel }

/-- The options of a run: those of the configuration, overridden by flags, and checked again. -/
def FlagValues.options (values : FlagValues) (files : Files) (environment : Variables) :
    Except Bytes CompilerOptions := do
  let configured :=
    if values.config.isEmpty then CompilerOptions.loadDefault files environment
    else CompilerOptions.load files environment values.config
  let options ← values.override (← configured.mapError ConfigFault.message)
  match options.invalid? with
  | some message => throw message
  | none => return options

/-- The compiler that flags ask for.  Its options decide what is logged from here on. -/
def prepare (values : FlagValues) : Job Compiler := do
  let workspace ← get
  match values.options workspace.files workspace.environment with
  | .error message => throw (.plain message)
  | .ok options =>
      set { workspace with threshold := Severity.threshold options.logLevel }
      return { options }

/-- Compile a file and tell what came of it. -/
def compileFile (values : FlagValues) (path : Bytes) : Job Unit := do
  let compiler ← prepare values
  let product ← compiler.compile path values.output
  product.dumps.forM fun dump => Job.log .info "wrote" [("path", dump)]
  if product.output.isEmpty then
    modify fun workspace => workspace.print (resultLine product.code)
  else Job.log .info "compiled" [("output", product.output)]

/-- The name of the file that keeps the history. -/
def historyName : Bytes := ".tessc_history"

/-- The path of the history: in the home directory, or in the working directory if there is none. -/
def historyPath (environment : Variables) : Bytes :=
  let home := environment.value "HOME"
  if home.isEmpty then historyName else home ++ "/" ++ historyName

/-- What is said at the start of a dialogue. -/
def greeting : Bytes := "TenessScript REPL. Ctrl+D exits, :help lists commands.\n"

/-- The entries of earlier dialogues. -/
def earlierEntries (workspace : Workspace) : History :=
  match workspace.files.read (historyPath workspace.environment) with
  | .ok contents => .ofFile contents
  | .error _ => []

/-- Keep the entries of a dialogue behind those of earlier ones.  A history that cannot be written
is given up. -/
def keepEntries (earlier : History) (dialogue : Dialogue) (workspace : Workspace) : Workspace :=
  let history := dialogue.history.foldl History.add earlier
  match workspace.files.write (historyPath workspace.environment) history.contents with
  | .ok files => { workspace with files }
  | .error _ => workspace

/-- Lead a dialogue with the lines of the standard input, and keep its entries in the history. -/
def leadDialogue (values : FlagValues) (input : Bytes) : Job Unit := do
  let compiler ← prepare values
  let earlier := earlierEntries (← get)
  modify fun workspace => workspace.print greeting
  let answers := (lines input).map fun line => PromptAnswer.line line.content
  let start : Dialogue := { session := { compiler } }
  let (dialogue, _) ← (start.lead answers : StateM Workspace _)
  modify (keepEntries earlier dialogue)

/-- The description of the program. -/
def description : Bytes :=
  "tessc compiles a TenessScript source file to a native executable\n" ++
  "through LLVM, or runs it directly with --run.\n\n" ++
  "Commands:\n" ++
  "  repl   Read statements interactively and print their IR\n"

/-- Do what is asked for. -/
def perform (input : Bytes) : Request → Job Unit
  | .compile values path => compileFile values path
  | .dialogue values => leadDialogue values input
  | .help => modify fun workspace => workspace.print description

/-- Run the program with arguments and a standard input.  Returns the exit status. -/
def run (arguments : List Bytes) (input : Bytes) : StateM Workspace Nat := do
  let job : Job Unit :=
    match Request.ofArguments arguments with
    | .ok request => perform input request
    | .error mistake => throw (.plain mistake.message)
  match ← job.run with
  | .ok () => return 0
  | .error failure =>
      modify fun workspace => workspace.complain (failure.report none workspace.source?)
      return 1

end ScriptCompiler.CommandLine
