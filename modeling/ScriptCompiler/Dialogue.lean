import ScriptCompiler.Report
import ScriptCompiler.Session

/-!
# Dialogues

A session led line by line.  Lines are collected until they parse, or fail for another reason than
that the input ends too early; then they are compiled as one entry, or obeyed if they are a command.
-/

namespace ScriptCompiler

/-- What comes back from a prompt; the end of the input is the end of all answers. -/
inductive PromptAnswer where
  /-- A line. -/
  | line (content : Bytes)
  /-- The wish to drop the lines collected so far. -/
  | interrupt
  deriving DecidableEq, Repr

/-- A command to the dialogue itself. -/
inductive DialogueCommand where
  /-- End the dialogue. -/
  | quit
  /-- List the commands. -/
  | help
  /-- Drop all entries. -/
  | reset
  /-- Show the entries. -/
  | source
  /-- Show the module. -/
  | module
  /-- Run the entries. -/
  | run
  /-- Anything else. -/
  | unknown (word : Bytes)
  deriving DecidableEq, Repr

namespace DialogueCommand

/-- Whether a text is a command. -/
def isCommand (text : Bytes) : Bool := (Bytes.trim text).head? == some 0x3A

/-- The words for commands. -/
def words : List (Bytes × DialogueCommand) :=
  [(":quit", .quit), (":q", .quit), (":help", .help), (":reset", .reset), (":source", .source),
    (":ir", .module), (":run", .run)]

/-- The command that a text gives, in letters of any case. -/
def ofText (text : Bytes) : DialogueCommand :=
  let word := Bytes.lower (Bytes.trim text)
  (words.lookup word).getD (.unknown word)

/-- The list of the commands. -/
def helpText : Bytes :=
  "REPL commands:\n" ++
  "  :run     Run the session and print what it returned\n" ++
  "  :ir      Print the IR of the session\n" ++
  "  :source  Print the session source\n" ++
  "  :reset   Discard the session\n" ++
  "  :quit    Exit the REPL\n"

end DialogueCommand

/-- How the result of a program is shown. -/
def resultLine (code : Int) : Bytes := "Returned " ++ Bytes.ofInt code ++ "\n"

/-- A dialogue. -/
structure Dialogue where
  /-- The session. -/
  session : Session
  /-- The lines collected so far. -/
  pending : Bytes := []
  /-- The prompts that have been shown. -/
  prompts : List Bytes := []
  /-- The accepted entries, each on one line. -/
  history : List Bytes := []

namespace Dialogue

/-- The prompt for a first line. -/
def firstPrompt : Bytes := "tss> "

/-- The prompt for a further line. -/
def furtherPrompt : Bytes := "...  "

/-- The dialogue after a prompt. -/
def asked (dialogue : Dialogue) : Dialogue :=
  let prompt := if dialogue.pending.isEmpty then firstPrompt else furtherPrompt
  { dialogue with prompts := dialogue.prompts ++ [prompt] }

/-- The lines collected so far and another one. -/
def collected (dialogue : Dialogue) (line : Bytes) : Bytes :=
  if dialogue.pending.isEmpty then line else dialogue.pending ++ "\n" ++ line

/-- Whether a text is no command and may yet parse with more lines behind it. -/
def awaitsMore (dialogue : Dialogue) (text : Bytes) : Bool :=
  !DialogueCommand.isCommand text &&
    match dialogue.session.check text with
    | some diagnostic => diagnostic.incomplete
    | none => false

/-- Show the module of the session. -/
def moduleText (dialogue : Dialogue) : Bytes :=
  match dialogue.session.unit with
  | some unit => unit.module.text
  | none => []

/-- Obey a command.  Returns whether the dialogue goes on. -/
def obey (dialogue : Dialogue) : DialogueCommand → StateM Workspace (Dialogue × Bool)
  | .quit => return (dialogue, false)
  | .help => do
      modify fun workspace => workspace.print DialogueCommand.helpText
      return (dialogue, true)
  | .reset => return ({ dialogue with session := dialogue.session.reset }, true)
  | .source => do
      modify fun workspace => workspace.print (dialogue.session.source ++ "\n")
      return (dialogue, true)
  | .module => do
      modify fun workspace => workspace.print dialogue.moduleText
      return (dialogue, true)
  | .run => do
      match ← dialogue.session.run.run with
      | .ok code => modify fun workspace => workspace.print (resultLine code)
      | .error failure =>
          let file := SourceFile.ofContents Session.fileName dialogue.session.source
          modify fun workspace => workspace.complain (failure.report (some file) fun _ => none)
      return (dialogue, true)
  | .unknown word => do
      modify fun workspace => workspace.print ("unknown command " ++ word ++ ", type :help\n")
      return (dialogue, true)

/-- Compile an entry, show its module, and remember it. -/
def enter (dialogue : Dialogue) (entry : Bytes) : StateM Workspace Dialogue := do
  match ← (dialogue.session.add entry).run with
  | .error failure =>
      let file := dialogue.session.file entry
      modify fun workspace => workspace.complain (failure.report (some file) fun _ => none)
      return dialogue
  | .ok (unit, session) =>
      modify fun workspace => workspace.print unit.module.text
      let line := entry.map fun byte => if byte == 0x0A then 0x20 else byte
      return { dialogue with session, history := dialogue.history ++ [line] }

/-- Act on a text that awaits no more lines.  Returns whether the dialogue goes on. -/
def act (dialogue : Dialogue) (text : Bytes) : StateM Workspace (Dialogue × Bool) := do
  if (Bytes.trim text).isEmpty then return (dialogue, true)
  if DialogueCommand.isCommand text then dialogue.obey (.ofText text)
  else return (← dialogue.enter text, true)

/-- Go on with an answer.  Returns whether the dialogue goes on after it. -/
def answer (dialogue : Dialogue) : PromptAnswer → StateM Workspace (Dialogue × Bool)
  | .interrupt => return ({ dialogue with pending := [] }, true)
  | .line content =>
      let text := dialogue.collected content
      if dialogue.awaitsMore text then return ({ dialogue with pending := text }, true)
      else { dialogue with pending := [] }.act text

/-- Lead the dialogue with answers.  Returns it with the answers that were not asked for. -/
def lead (dialogue : Dialogue) :
    List PromptAnswer → StateM Workspace (Dialogue × List PromptAnswer)
  | [] => do
      modify fun workspace => workspace.print "\n"
      return (dialogue.asked, [])
  | first :: rest => do
      let (next, goesOn) ← dialogue.asked.answer first
      if goesOn then next.lead rest else return (next, rest)

end Dialogue

end ScriptCompiler
