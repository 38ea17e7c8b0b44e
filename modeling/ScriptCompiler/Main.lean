import ScriptCompiler.CommandLine.Run

/-!
# The program

The outer layer: it gathers what the command line may need into a workspace, and carries out what
comes back.  It starts no other program, so that every tool counts as absent.
-/

namespace ScriptCompiler.Program

/-- Write bytes to a stream. -/
def put (stream : IO.FS.Stream) (bytes : Bytes) : IO Unit := do
  stream.write (ByteArray.mk bytes.toArray)
  stream.flush

/-- The names that a text may mention as variables. -/
def mentioned (text : String) : List String :=
  text.splitToList fun char => !(char.isAlphanum || char == '_')

/-- The variables of the environment that some texts may mention. -/
def readVariables (texts : List String) : IO Variables :=
  ("HOME" :: "TESS_CONFIG" :: texts.flatMap mentioned).filterMapM fun name => do
    return (← IO.getEnv name).map fun value => (Bytes.ofString name, Bytes.ofString value)

/-- The place of a path among the files, by its parts alone. -/
def place (path : Bytes) : List Bytes :=
  let start : List Bytes := if path.head? == some 0x2F then [[]] else []
  (Bytes.splitOn 0x2F path).foldl (fun here part =>
    if part.isEmpty || part == Bytes.ofString "." then here
    else if part == Files.upwards then Files.above here
    else here ++ [part]) start

/-- The path of a place. -/
def pathOf (parts : List Bytes) : String :=
  String.ofList ((Bytes.runes (Bytes.join "/" parts)).map Char.ofNat)

/-- What stands at a place: a file, or a directory, which is marked by a file without a name. -/
def readPlace (parts : List Bytes) : IO (List (List Bytes × Bytes)) := do
  try
    if ← (← IO.FS.realPath (pathOf parts)).isDir then return [(parts ++ [[]], [])]
    return [(parts, (← IO.FS.readBinFile (pathOf parts)).toList)]
  catch _ => return []

/-- The paths that the command line may read or write: the arguments and their values, and the
places where a configuration and the history are looked for. -/
def possiblePaths (arguments : List String) (environment : Variables) : List Bytes :=
  let given := arguments.flatMap fun argument =>
    [argument, ((argument.splitOn "=").getLast?).getD argument]
  let texts := given.map fun text => environment.expand (Bytes.ofString text)
  texts ++ [environment.expand (environment.value CompilerOptions.configVariable),
    CommandLine.historyPath environment] ++ CompilerOptions.configNames

/-- The workspace of a command line. -/
def readWorkspace (arguments : List String) : IO Workspace := do
  let named ← IO.getEnv "TESS_CONFIG"
  let environment ← readVariables (named.getD "" :: arguments)
  let places := (possiblePaths arguments environment).map place
  let entries ← (places ++ places.map List.dropLast).eraseDups.flatMapM readPlace
  return { files := ⟨[], entries⟩, environment }

/-- Write the files that a run has changed. -/
def writeFiles (before after : Files) : IO Unit :=
  (after.entries.filter fun entry => !before.entries.contains entry).forM fun (parts, content) =>
    IO.FS.writeBinFile (pathOf parts) (ByteArray.mk content.toArray)

/-- Write what a workspace holds for the two streams, and empty it. -/
def putStreams (workspace : Workspace) : IO Workspace := do
  put (← IO.getStdout) workspace.output
  put (← IO.getStderr) workspace.errorText
  return { workspace with output := [], notices := [] }

/-- Lead a dialogue with the lines of the standard input, one after the other. -/
partial def converse (dialogue : Dialogue) (workspace : Workspace) : IO (Dialogue × Workspace) := do
  let asked := dialogue.asked
  put (← IO.getStdout) (asked.prompts.getLast?.getD [])
  let line ← (← IO.getStdin).getLine
  if line.isEmpty then
    return (asked, ← putStreams (workspace.print "\n"))
  let content := Bytes.dropSuffix [0x0D] (Bytes.dropSuffix [0x0A] (Bytes.ofString line))
  let ((next, goesOn), after) := (asked.answer (.line content)).run workspace
  let after ← putStreams after
  if goesOn then converse next after else return (next, after)

/-- Do what the arguments ask for.  Returns the exit status. -/
def run (arguments : List String) : IO UInt32 := do
  let workspace ← readWorkspace arguments
  let words := arguments.map Bytes.ofString
  match CommandLine.Request.ofArguments words with
  | .ok (.dialogue values) =>
      match (CommandLine.prepare values).run workspace with
      | (.ok compiler, prepared) =>
          let earlier := CommandLine.earlierEntries prepared
          let greeted ← putStreams (prepared.print CommandLine.greeting)
          let (dialogue, after) ← converse { session := { compiler } } greeted
          writeFiles workspace.files (CommandLine.keepEntries earlier dialogue after).files
          return 0
      | (.error failure, prepared) =>
          put (← IO.getStderr) (failure.report none prepared.source?)
          return 1
  | _ =>
      let (status, after) := (CommandLine.run words []).run workspace
      writeFiles workspace.files after.files
      let _ ← putStreams after
      return status.toUInt32

end ScriptCompiler.Program

/-- The entry point of the program. -/
def main (arguments : List String) : IO UInt32 := ScriptCompiler.Program.run arguments
