import ScriptCompiler.Source.File
import ScriptCompiler.Source.Position

/-!
# Diagnostics

A diagnostic is what a stage of the compiler reports about a program: a category, which also tells
the stage, a text, a place, and the file and scope it is attributed to.  Each stage stops at its
first diagnostic.  A failure is anything that ends a run; it may carry a diagnostic or the exit
status of a tool.
-/

namespace ScriptCompiler

/-- The stage of compilation that reports a diagnostic. -/
inductive Stage where
  /-- Reading tokens. -/
  | lexing
  /-- Reading the syntax tree. -/
  | parsing
  /-- Checking names and types and building blocks. -/
  | building
  /-- Running the program. -/
  | execution
  deriving DecidableEq, Repr

namespace Stage

/-- The stages in order. -/
def all : List Stage := [.lexing, .parsing, .building, .execution]

/-- The name of a stage. -/
def name : Stage → Bytes
  | .lexing => "lexing"
  | .parsing => "parsing"
  | .building => "building"
  | .execution => "execution"

/-- The name of the stage with a number, or the number itself where there is none. -/
def nameOfCode (code : Int) : Bytes :=
  if code < 0 then "Stage(" ++ Bytes.ofInt code ++ ")"
  else
    match all[code.toNat]? with
    | some stage => stage.name
    | none => "Stage(" ++ Bytes.ofInt code ++ ")"

end Stage

/-- What a diagnostic is about. -/
inductive Category where
  /-- A character that begins no token, or a token without an end. -/
  | illegalCharacter
  /-- A token that does not fit the grammar. -/
  | invalidSyntax
  /-- A node that has no meaning where it stands. -/
  | unknownNode
  /-- A name declared twice. -/
  | duplicateName
  /-- A name without a declaration. -/
  | noSuchVariable
  /-- A value of the wrong type. -/
  | typeError
  /-- A failure while the program runs. -/
  | runtimeException
  /-- An index out of range. -/
  | invalidIndex
  /-- A category that has a number and no name. -/
  | unlisted (code : Int)
  deriving DecidableEq, Repr

namespace Category

/-- The named categories in the order of their numbers. -/
def all : List Category :=
  [.illegalCharacter, .invalidSyntax, .unknownNode, .duplicateName, .noSuchVariable, .typeError,
    .runtimeException, .invalidIndex]

/-- The category with a number. -/
def ofCode (code : Int) : Category :=
  if code < 0 then .unlisted code else (all[code.toNat]?).getD (.unlisted code)

/-- The name of a category. -/
def name : Category → Bytes
  | .illegalCharacter => "Illegal Character"
  | .invalidSyntax => "Invalid Syntax"
  | .unknownNode => "Unknown Node"
  | .duplicateName => "Duplicate Name"
  | .noSuchVariable => "No such Variable"
  | .typeError => "Type Error"
  | .runtimeException => "Runtime Exception"
  | .invalidIndex => "Invalid Index"
  | .unlisted code => "Category(" ++ Bytes.ofInt code ++ ")"

/-- The stage that reports a category. -/
def stage : Category → Stage
  | .illegalCharacter => .lexing
  | .invalidSyntax => .parsing
  | .runtimeException | .invalidIndex => .execution
  | _ => .building

end Category

/-- The file and the scope that a diagnostic is attributed to. -/
structure Origin where
  /-- The stem of the file. -/
  file : Bytes
  /-- The label of the scope. -/
  scope : Bytes
  deriving DecidableEq, Repr

/-- A report of one stage about a program. -/
structure Diagnostic where
  /-- What the report is about. -/
  category : Category
  /-- The text of the report. -/
  details : Bytes
  /-- The place in the source. -/
  position : Position
  /-- The file and scope it is attributed to. -/
  origin : Origin
  /-- Whether the program ended too early and more input may help. -/
  incomplete : Bool := false
  /-- The text of the failure behind the report, if there is one. -/
  cause : Option Bytes := none
  deriving DecidableEq, Repr

namespace Diagnostic

/-- The stage that raised the diagnostic. -/
def stage (diagnostic : Diagnostic) : Stage := diagnostic.category.stage

/-- The file named in the message: the origin's, or the position's when the origin has none. -/
def fileName (diagnostic : Diagnostic) : Bytes :=
  if diagnostic.origin.file.isEmpty then diagnostic.position.file else diagnostic.origin.file

/-- The diagnostic on one line: category, text, file and, where it is known, the place. -/
def message (diagnostic : Diagnostic) : Bytes :=
  let place :=
    if diagnostic.position.isKnown then
      ", line " ++ Bytes.ofInt diagnostic.position.line ++
        ", pos " ++ Bytes.ofInt diagnostic.position.column
    else []
  diagnostic.category.name ++ ": " ++ diagnostic.details ++ ", file " ++
    diagnostic.fileName ++ place

/-- The offending source line and a line with a caret under the column. -/
def excerpt (diagnostic : Diagnostic) (file : SourceFile) : Bytes :=
  if diagnostic.position.isKnown then
    file.line diagnostic.position.line ++ "\n" ++
      Bytes.filled (diagnostic.position.column - 1).toNat 0x20 ++ "^"
  else []

end Diagnostic

/-- Why a run ended early. -/
structure Failure where
  /-- The full text of the failure. -/
  message : Bytes
  /-- The diagnostic it carries. -/
  diagnostic : Option Diagnostic := none
  /-- The exit status of the tool that failed. -/
  exitStatus : Option Int := none
  deriving DecidableEq, Repr

namespace Failure

/-- The failure that a diagnostic is. -/
def ofDiagnostic (diagnostic : Diagnostic) : Failure :=
  { message := diagnostic.message, diagnostic := some diagnostic }

/-- A failure that is only a text. -/
def plain (message : Bytes) : Failure := { message := message }

/-- The same failure with a context in front of its text. -/
def within (failure : Failure) (context : Bytes) : Failure :=
  { failure with message := context ++ ": " ++ failure.message }

/-- Whether the failure carries a diagnostic of a category. -/
def isAbout (failure : Failure) (category : Category) : Bool :=
  match failure.diagnostic with
  | some diagnostic => diagnostic.category == category
  | none => false

/-- Whether the failure is a syntax error at the end of the input. -/
def isIncomplete (failure : Failure) : Bool :=
  match failure.diagnostic with
  | some diagnostic => diagnostic.incomplete
  | none => false

end Failure

end ScriptCompiler
