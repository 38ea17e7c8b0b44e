import ScriptCompiler.Text.Path

/-!
# Files

A tree of files below a working directory, as seen by a program that reads and writes files by their
paths.
-/

namespace ScriptCompiler

/-- Files around a working directory: the parts of each path, and the content.  The path of a file
elsewhere starts with steps upwards, or with an empty part for the root of all directories. -/
structure Files where
  /-- The name of the working directory. -/
  directory : Bytes
  /-- The files. -/
  entries : List (List Bytes × Bytes)
  deriving DecidableEq, Repr

/-- Why a file cannot be used. -/
inductive FileFault where
  /-- There is nothing at the path. -/
  | absent
  /-- There is a directory at the path. -/
  | isDirectory
  /-- A part of the path that should be a directory is a file. -/
  | notDirectory
  deriving DecidableEq, Repr

/-- The reason for a fault. -/
def FileFault.reason : FileFault → Bytes
  | .absent => "no such file or directory"
  | .isDirectory => "is a directory"
  | .notDirectory => "not a directory"

namespace Files

/-- What stands at the end of a path. -/
inductive Place where
  /-- A file with a content. -/
  | file (content : Bytes)
  /-- A directory. -/
  | directory
  deriving DecidableEq, Repr

/-- The part of a path that leads upwards. -/
def upwards : Bytes := ".."

/-- Whether the parts of a path lead to the working directory, one above it, or the root. -/
def isAncestor (parts : List Bytes) : Bool := parts == [[]] || parts.all fun part => part == upwards

/-- What stands at the parts of a path. -/
def at? (files : Files) (parts : List Bytes) : Option Place :=
  match files.entries.lookup parts with
  | some content => some (.file content)
  | none =>
      if isAncestor parts || files.entries.any fun entry => parts.isPrefixOf entry.1 then
        some .directory
      else none

/-- The directory above one. -/
def above (parts : List Bytes) : List Bytes :=
  if parts == [[]] then parts
  else if isAncestor parts then parts ++ [upwards]
  else parts.dropLast

/-- Follow the remaining parts of a path from a directory. -/
def walk (files : Files) : List Bytes → List Bytes → Except FileFault (List Bytes)
  | here, [] => .ok here
  | here, part :: rest =>
      if part.isEmpty || part == Bytes.ofString "." then files.walk here rest
      else if part == upwards then files.walk (above here) rest
      else
        let next := here ++ [part]
        match files.at? next with
        | some .directory => files.walk next rest
        | some (.file _) => if rest.isEmpty then .ok next else .error .notDirectory
        | none => if rest.isEmpty then .ok next else .error .absent

/-- The directory that a path starts from, and the parts that lead on from there. -/
def split (files : Files) (path : Bytes) : List Bytes × List Bytes :=
  let start := files.directory ++ "/"
  if !files.directory.isEmpty && start.isPrefixOf path then
    ([], Bytes.splitOn 0x2F (path.drop start.length))
  else (if path.head? == some 0x2F then [[]] else [], Bytes.splitOn 0x2F path)

/-- The place of a path. -/
def resolve (files : Files) (path : Bytes) : Except FileFault (List Bytes) :=
  if path.isEmpty then .error .absent
  else
    let (start, parts) := files.split path
    files.walk start parts

/-- The content of the file at a path. -/
def read (files : Files) (path : Bytes) : Except FileFault Bytes :=
  match files.resolve path with
  | .error fault => .error fault
  | .ok parts =>
      match files.at? parts with
      | some (.file content) => .ok content
      | some .directory => .error .isDirectory
      | none => .error .absent

/-- What is said when a file cannot be read. -/
def readMessage (path : Bytes) : FileFault → Bytes
  | .isDirectory => "read " ++ path ++ ": " ++ FileFault.isDirectory.reason
  | fault => "open " ++ path ++ ": " ++ fault.reason

/-- Whether there is anything at a path. -/
def has (files : Files) (path : Bytes) : Bool :=
  match files.resolve path with
  | .ok parts => (files.at? parts).isSome
  | .error _ => false

/-- The files with a new content at a path. -/
def write (files : Files) (path content : Bytes) : Except FileFault Files :=
  match files.resolve path with
  | .error fault => .error fault
  | .ok parts =>
      match files.at? parts with
      | some .directory => .error .isDirectory
      | _ =>
          .ok { files with
            entries := (files.entries.filter fun entry => entry.1 != parts) ++ [(parts, content)] }

end Files

end ScriptCompiler
