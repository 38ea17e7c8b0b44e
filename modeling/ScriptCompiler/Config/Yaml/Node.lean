import ScriptCompiler.Config.Yaml.Token

/-!
# The nodes of a YAML document

The tokens of a stream become the nodes of its first document: scalars, sequences, mappings, and
aliases of nodes that have been given a name.  A node that is not written is an empty scalar.  An
alias inside the node that it names has no target, because that node is not complete.
-/

namespace ScriptCompiler.Yaml

/-- A scalar with its tag. -/
structure Scalar where
  /-- The tag, or nothing if there is none. -/
  tag : Bytes := []
  /-- Whether it is written without quotes and not as a block. -/
  plain : Bool := true
  /-- The text. -/
  text : Bytes := []
  deriving DecidableEq, Repr

/-- A node of a document. -/
inductive Node where
  /-- A scalar. -/
  | scalar (content : Scalar)
  /-- A list of nodes. -/
  | sequence (items : List Node)
  /-- A list of keys with their values. -/
  | mapping (entries : List (Node × Node))
  /-- A node that has a name; it has no target while it is incomplete. -/
  | alias (name : Bytes) (target : Option Node)
  deriving Repr

/-- The node that is not written. -/
def Node.absent : Node := .scalar {}

/-- What is known while nodes are put together. -/
structure Composition where
  /-- The tokens that are left. -/
  tokens : List Token
  /-- The named nodes, the latest first. -/
  names : List (Bytes × Option Node) := []
  /-- The beginnings of tags that handles stand for. -/
  handles : List (Bytes × Bytes) := []

/-- A step of putting nodes together: it takes tokens from the front, or refuses them. -/
abbrev Compose := StateT Composition Option

namespace Compose

/-- Refuse the tokens. -/
def refuse {α : Type} : Compose α := StateT.lift none

/-- The next token, which stays where it is. -/
def peek : Compose Token := do
  match (← get).tokens with
  | [] => refuse
  | token :: _ => return token

/-- Take the next token. -/
def advance : Compose Unit := modify fun state => { state with tokens := state.tokens.drop 1 }

/-- Take a token, which must be next. -/
def expect (token : Token) : Compose Unit := do
  if (← peek) == token then advance else refuse

/-- The tags that need not be spelt in full. -/
def commonTags : Bytes := "tag:yaml.org,2002:"

/-- The handles that need no directive. -/
def defaultHandles : List (Bytes × Bytes) := [([0x21], [0x21]), ([0x21, 0x21], commonTags)]

/-- A tag in its short form. -/
def shortTag (tag : Bytes) : Bytes :=
  if commonTags.isPrefixOf tag then "!!" ++ tag.drop commonTags.length else tag

/-- The tag with a handle and a suffix.  A single exclamation mark is no tag. -/
def fullTag (handle suffix : Bytes) : Compose Bytes := do
  if handle.isEmpty then return if suffix == [0x21] then [] else shortTag suffix
  match (← get).handles.lookup handle with
  | none => refuse
  | some start =>
      let tag := start ++ suffix
      return if tag == [0x21] then [] else shortTag tag

/-- What may stand before a node. -/
structure Properties where
  /-- The name of the node. -/
  name : Option Bytes := none
  /-- Its tag; nothing if there is none or only the mark of one. -/
  tag : Bytes := []
  /-- Whether anything stands there. -/
  given : Bool := false

/-- The name and the tag of the following node, in any order. -/
def properties : Compose Properties := do
  match ← peek with
  | .anchor name =>
      advance
      match ← peek with
      | .tag handle suffix =>
          advance
          return ⟨some name, ← fullTag handle suffix, true⟩
      | _ => return ⟨some name, [], true⟩
  | .tag handle suffix =>
      advance
      let tag ← fullTag handle suffix
      match ← peek with
      | .anchor name =>
          advance
          return ⟨some name, tag, true⟩
      | _ => return ⟨none, tag, true⟩
  | _ => return {}

/-- Give a name to a node. -/
def define (name : Option Bytes) (target : Option Node) : Compose Unit :=
  match name with
  | none => return
  | some found => modify fun state => { state with names := (found, target) :: state.names }

/-- Put a collection together that has a name from its beginning.  The name stands for the complete
collection afterwards, unless it has been given to another node meanwhile. -/
def collection (name : Option Bytes) (content : Compose Node) : Compose Node := do
  define name none
  let node ← content
  let names := (← get).names
  if (name.bind fun found => names.lookup found).any Option.isNone then define name (some node)
  return node

mutual

/-- A node.  Blocks may begin here if `block` holds, and a sequence that is not indented if
`indentless` does. -/
def node (block indentless : Bool) : Nat → Compose Node
  | 0 => refuse
  | fuel + 1 => do
      match ← peek with
      | .alias name =>
          match (← get).names.lookup name with
          | none => refuse
          | some target =>
              advance
              return .alias name target
      | _ =>
          let found ← properties
          match ← peek, block, indentless with
          | .blockEntry, _, true => collection found.name (.sequence <$> indentlessItems fuel)
          | .scalar plain text, _, _ =>
              advance
              let content : Scalar := ⟨found.tag, plain, text⟩
              define found.name (some (.scalar content))
              return .scalar content
          | .flowSequence, _, _ =>
              advance
              collection found.name (.sequence <$> flowItems true fuel)
          | .flowMapping, _, _ =>
              advance
              collection found.name (.mapping <$> flowEntries true fuel)
          | .blockSequence, true, _ =>
              advance
              collection found.name (.sequence <$> blockItems fuel)
          | .blockMapping, true, _ =>
              advance
              collection found.name (.mapping <$> blockEntries fuel)
          | _, _, _ =>
              if found.given then
                let content : Scalar := { tag := found.tag }
                define found.name (some (.scalar content))
                return .scalar content
              else refuse

/-- The items of an indented sequence. -/
def blockItems : Nat → Compose (List Node)
  | 0 => refuse
  | fuel + 1 => do
      match ← peek with
      | .blockEntry =>
          advance
          let item ← match ← peek with
            | .blockEntry | .blockEnd => pure Node.absent
            | _ => node true false fuel
          return item :: (← blockItems fuel)
      | .blockEnd =>
          advance
          return []
      | _ => refuse

/-- The items of a sequence that is not indented. -/
def indentlessItems : Nat → Compose (List Node)
  | 0 => refuse
  | fuel + 1 => do
      match ← peek with
      | .blockEntry =>
          advance
          let item ← match ← peek with
            | .blockEntry | .key | .value | .blockEnd => pure Node.absent
            | _ => node true false fuel
          return item :: (← indentlessItems fuel)
      | _ => return []

/-- A key or a value in an indented mapping, behind its mark. -/
def blockPart : Nat → Compose Node
  | 0 => refuse
  | fuel + 1 => do
      match ← peek with
      | .key | .value | .blockEnd => return Node.absent
      | _ => node true true fuel

/-- The entries of an indented mapping. -/
def blockEntries : Nat → Compose (List (Node × Node))
  | 0 => refuse
  | fuel + 1 => do
      match ← peek with
      | .key =>
          advance
          let key ← blockPart fuel
          let value ← match ← peek with
            | .value => do
                advance
                blockPart fuel
            | _ => pure Node.absent
          return (key, value) :: (← blockEntries fuel)
      | .blockEnd =>
          advance
          return []
      | _ => refuse

/-- The value of a key in a flow collection. -/
def flowValue (close : Token) : Nat → Compose Node
  | 0 => refuse
  | fuel + 1 => do
      if (← peek) == .value then
        advance
        let token ← peek
        if token == .flowEntry || token == close then return Node.absent else node false false fuel
      else return Node.absent

/-- A mapping of one entry in a flow sequence, behind the mark of its key.  A token in the place of
the key is lost. -/
def flowPair : Nat → Compose Node
  | 0 => refuse
  | fuel + 1 => do
      let key ← match ← peek with
        | .value | .flowEntry | .flowSequenceEnd => do
            advance
            pure Node.absent
        | _ => node false false fuel
      let value ← flowValue .flowSequenceEnd fuel
      return .mapping [(key, value)]

/-- The items of a flow sequence, with a comma before each but the first. -/
def flowItems (first : Bool) : Nat → Compose (List Node)
  | 0 => refuse
  | fuel + 1 => do
      if !first && (← peek) != .flowSequenceEnd then expect .flowEntry
      match ← peek with
      | .flowSequenceEnd =>
          advance
          return []
      | .key =>
          advance
          let item ← flowPair fuel
          return item :: (← flowItems false fuel)
      | _ =>
          let item ← node false false fuel
          return item :: (← flowItems false fuel)

/-- The entries of a flow mapping, with a comma before each but the first. -/
def flowEntries (first : Bool) : Nat → Compose (List (Node × Node))
  | 0 => refuse
  | fuel + 1 => do
      if !first && (← peek) != .flowMappingEnd then expect .flowEntry
      match ← peek with
      | .flowMappingEnd =>
          advance
          return []
      | .key =>
          advance
          let key ← match ← peek with
            | .value | .flowEntry | .flowMappingEnd => pure Node.absent
            | _ => node false false fuel
          let value ← flowValue .flowMappingEnd fuel
          return (key, value) :: (← flowEntries false fuel)
      | _ =>
          let key ← node false false fuel
          return (key, Node.absent) :: (← flowEntries false fuel)

end

/-- Add a handle, which must be new. -/
def addHandle (name start : Bytes) : Compose Unit := do
  let state ← get
  if (state.handles.lookup name).isSome then refuse
  set { state with handles := (name, start) :: state.handles }

/-- The directives before a document.  The version may be given once and is always the same. -/
def directives (versioned : Bool) : Nat → Compose Unit
  | 0 => refuse
  | fuel + 1 => do
      match ← peek with
      | .version major minor =>
          if versioned || major != 1 || minor != 1 then refuse
          advance
          directives true fuel
      | .handle name start =>
          addHandle name start
          advance
          directives versioned fuel
      | _ => return

/-- A document behind the mark that begins it. -/
def markedContent (fuel : Nat) : Compose Node := do
  match ← peek with
  | .version _ _ | .handle _ _ | .documentStart | .documentEnd | .streamEnd => return Node.absent
  | _ => node true false fuel

/-- A document with directives or the mark that begins it. -/
def markedDocument (fuel : Nat) : Compose Node := do
  directives false fuel
  expect .documentStart
  modify fun state => { state with handles := state.handles ++ defaultHandles }
  markedContent fuel

/-- The first document; there is none in an empty stream.  The token behind it must be usable. -/
def document (fuel : Nat) : Compose (Option Node) := do
  match ← peek with
  | .streamEnd => return none
  | .version _ _ | .handle _ _ | .documentStart =>
      let root ← markedDocument fuel
      let _ ← peek
      return some root
  | _ =>
      modify fun state => { state with handles := defaultHandles }
      let root ← node true false fuel
      let _ ← peek
      return some root

end Compose

/-- The first document of a stream: nothing if the stream cannot be read, and no node if there is no
document in it. -/
def document? (stream : Bytes) : Option (Option Node) :=
  match streamRunes? stream with
  | none => none
  | some runes =>
      let found := tokens runes
      ((Compose.document (4 * found.length + 8)).run { tokens := found }).map Prod.fst

end ScriptCompiler.Yaml
