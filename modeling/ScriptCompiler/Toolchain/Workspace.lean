import ScriptCompiler.Config.Load
import ScriptCompiler.Diagnostic
import ScriptCompiler.Files
import ScriptCompiler.Log

/-!
# The workspace

Everything outside the compiler that it depends on or changes: the files, the variables of the
environment, the tools that it calls, and what is written to the two output streams.  A tool is a
function from a call to a reply, so that a run of the compiler is determined by its workspace.
-/

namespace ScriptCompiler

/-- A call of a tool. -/
structure ToolCall where
  /-- The name or the path of the tool. -/
  tool : Bytes
  /-- The arguments. -/
  arguments : List Bytes
  /-- What the tool reads. -/
  input : Bytes := []
  deriving DecidableEq, Repr

/-- How a call fails. -/
inductive ToolFault where
  /-- There is no such tool. -/
  | notFound
  /-- The tool could not be run to its end. -/
  | failed (message : Bytes)
  /-- The tool ended with a status other than zero; a negative one means that a signal ended it. -/
  | exited (status : Int)
  deriving DecidableEq, Repr

namespace ToolFault

/-- What is said when a tool fails. -/
def message (tool : Bytes) : ToolFault → Bytes
  | .notFound => "exec: " ++ Quoted.text tool ++ ": executable file not found in $PATH"
  | .failed message => message
  | .exited status => "exit status " ++ Bytes.ofInt status

/-- The status that a tool ended with. -/
def status? : ToolFault → Option Int
  | .exited status => some status
  | _ => none

end ToolFault

/-- The reply of a tool. -/
structure ToolReply where
  /-- What the tool wrote as its result. -/
  output : Bytes := []
  /-- What the tool wrote beside its result. -/
  errors : Bytes := []
  /-- How the tool failed, if it did. -/
  fault : Option ToolFault := none
  deriving DecidableEq, Repr

/-- Something written to the stream for errors. -/
inductive Notice where
  /-- A record of the log. -/
  | record (content : LogRecord)
  /-- A text. -/
  | text (content : Bytes)
  deriving DecidableEq, Repr

/-- A notice as written. -/
def Notice.written : Notice → Bytes
  | .record content => content.line ++ "\n"
  | .text content => content

/-- The surroundings of a run of the compiler. -/
structure Workspace where
  /-- The files. -/
  files : Files
  /-- The variables of the environment. -/
  environment : Variables := []
  /-- The tools. -/
  tools : ToolCall → ToolReply := fun _ => { fault := some .notFound }
  /-- The directory for files that are needed for a moment. -/
  scratch : Bytes := "/tmp"
  /-- Whether the run has been cancelled. -/
  cancelled : Bool := false
  /-- The least level of records that are written. -/
  threshold : Int := Severity.info.level
  /-- The calls of tools so far. -/
  calls : List ToolCall := []
  /-- What has been written to the stream for results. -/
  output : Bytes := []
  /-- What has been written to the stream for errors. -/
  notices : List Notice := []

/-- What is said when a run has been cancelled. -/
def cancellation : Bytes := "context canceled"

namespace Workspace

/-- Write to the stream for results. -/
def print (workspace : Workspace) (text : Bytes) : Workspace :=
  { workspace with output := workspace.output ++ text }

/-- Write a text to the stream for errors. -/
def complain (workspace : Workspace) (text : Bytes) : Workspace :=
  { workspace with notices := workspace.notices ++ [.text text] }

/-- Write the records that reach the threshold to the stream for errors. -/
def log (workspace : Workspace) (records : List LogRecord) : Workspace :=
  let written := records.filter fun record => record.reaches workspace.threshold
  { workspace with notices := workspace.notices ++ written.map Notice.record }

/-- Call a tool.  A cancelled run calls none. -/
def call (workspace : Workspace) (call : ToolCall) : ToolReply × Workspace :=
  if workspace.cancelled then ({ fault := some (.failed cancellation) }, workspace)
  else
    let reply := workspace.tools call
    if reply.fault == some .notFound then (reply, workspace)
    else (reply, { workspace with calls := workspace.calls ++ [call] })

/-- All that has been written to the stream for errors. -/
def errorText (workspace : Workspace) : Bytes := workspace.notices.flatMap Notice.written

/-- The source file at a path. -/
def source? (workspace : Workspace) (path : Bytes) : Option SourceFile :=
  match workspace.files.read path with
  | .ok contents => some (SourceFile.ofContents path contents)
  | .error _ => none

end Workspace

/-- Work done in a workspace, which may fail.  What was done before a failure stays done. -/
abbrev Job := ExceptT Failure (StateM Workspace)

namespace Job

/-- Write a record to the log. -/
def log (severity : Severity) (message : Bytes) (fields : List (Bytes × Bytes)) : Job Unit :=
  modify fun workspace => workspace.log [⟨severity, message, fields⟩]

/-- Call a tool. -/
def call (request : ToolCall) : Job ToolReply := modifyGet fun workspace => workspace.call request

end Job

end ScriptCompiler
