import ScriptCompiler.Config.Toml.Statement

/-!
# The tables of a TOML document

The statements of a document build up its tables.  A key that has been defined is not defined again,
with two exceptions: a table that exists only because a longer key goes through it, and a key whose
value is a list.
-/

namespace ScriptCompiler.Toml

/-- What a key stands for. -/
inductive Item where
  /-- A value that is no table. -/
  | value (content : Value)
  /-- A table. -/
  | table (entries : List (Bytes × Item))
  /-- A list of tables, of which only the last one can still grow. -/
  | tables (last : List (Bytes × Item))
  deriving Repr

/-- The entries of a table. -/
abbrev Entries := List (Bytes × Item)

/-- The entries with an item for a name in the place of the one before. -/
def Entries.put (name : Bytes) (item : Item) : Entries → Entries
  | [] => [(name, item)]
  | entry :: rest => if entry.1 == name then (name, item) :: rest else entry :: put name item rest

/-- The entries of the table with a key, through the last table of each list on the way. -/
def Entries.tableAt? (entries : Entries) : Key → Option Entries
  | [] => some entries
  | name :: rest =>
      match entries.lookup name with
      | some (.table inner) => Entries.tableAt? inner rest
      | some (.tables inner) => Entries.tableAt? inner rest
      | _ => none

/-- Change the table with a key. -/
def Entries.change (entries : Entries) (change : Entries → Entries) : Key → Entries
  | [] => change entries
  | name :: rest =>
      match entries.lookup name with
      | some (.table inner) => entries.put name (.table (Entries.change inner change rest))
      | some (.tables inner) => entries.put name (.tables (Entries.change inner change rest))
      | _ => entries

/-- A document under construction. -/
structure Document where
  /-- The outermost table. -/
  root : Entries := []
  /-- The keys of tables that exist only because a longer key goes through them. -/
  implied : List Key := []
  /-- The keys whose latest value is a list. -/
  lists : List Key := []
  /-- The keys that are written, the latest first. -/
  keys : List Key := []

namespace Document

/-- Take a key as written. -/
def note (key : Key) (document : Document) : Document :=
  { document with keys := key :: document.keys }

/-- Let a key be implied. -/
def imply (key : Key) (document : Document) : Document :=
  { document with implied := key :: document.implied }

/-- Let a key be implied no longer. -/
def settle (key : Key) (document : Document) : Document :=
  { document with implied := document.implied.filter (· != key) }

/-- Record whether the value of a name in a table is a list.  What is recorded for the empty name is
recorded for the table, except in the outermost one. -/
def record (table : Key) (name : Bytes) (list : Bool) (document : Document) : Document :=
  let key := if name.isEmpty && !table.isEmpty then table else table ++ [name]
  let others := document.lists.filter (· != key)
  { document with lists := if list then key :: others else others }

/-- Define a name in a table.  A table that is implied stays as it is. -/
def put? (table : Key) (name : Bytes) (item : Item) (document : Document) : Option Document := do
  let entries ← document.root.tableAt? table
  let key := table ++ [name]
  let replaced := { document with root := document.root.change (Entries.put name item) table }
  if (entries.lookup name).isNone then return replaced
  else if document.lists.contains key then return replaced.settle key
  else if document.implied.contains key then return document.settle key
  else none

/-- Make sure that there is a table for a name in a table on the way to another. -/
def pass? (document : Document) (key : Key) : Option Document := do
  let table := key.dropLast
  let name := key.getLastD []
  let entries ← document.root.tableAt? table
  match entries.lookup name with
  | none =>
      let passed := document.root.change (Entries.put name (.table [])) table
      return { document with root := passed }.imply key
  | some (.value _) => none
  | some _ => return document

/-- The keys of the tables around a key, the outermost first. -/
def around (key : Key) : List Key :=
  ((List.range key.length).filter (0 < ·)).map key.take

/-- Open the table with a key. -/
def openTable? (key : Key) (document : Document) : Option Document := do
  let ready ← (around key).foldlM pass? document
  ready.put? key.dropLast (key.getLastD []) (.table [])

/-- Open another table of the list with a key. -/
def openListed? (key : Key) (document : Document) : Option Document := do
  let ready ← (around key).foldlM pass? document
  let entries ← ready.root.tableAt? key.dropLast
  let opened := ready.root.change (Entries.put (key.getLastD []) (.tables [])) key.dropLast
  match entries.lookup (key.getLastD []) with
  | none | some (.tables _) => return { ready with root := opened }
  | _ => none

/-- Open the tables that a key with dots goes through.  They may have been opened before. -/
def openDotted? (document : Document) (key : Key) : Option Document :=
  (document.imply key).openTable? key

/-- The keys of the tables in a table that a key with dots goes through. -/
def through (table key : Key) : List Key := (around key).map (table ++ ·)

mutual

/-- Give a value to a key in a table. -/
def assign? (table key : Key) (value : Value) : Nat → Document → Option Document
  | 0, _ => none
  | fuel + 1, document => do
      let inner := table ++ key.dropLast
      let name := key.getLastD []
      let ready ← (through table key).foldlM openDotted? document
      let built ← build? inner name false value fuel (ready.note (inner ++ [name]))
      let content : Item := match value with
        | .table _ => .table ((built.root.tableAt? (inner ++ [name])).getD [])
        | _ => .value value
      let given ← built.put? inner name content
      return given.record inner name (value matches .array _)

/-- Build up the tables in a value for a name in a table; `listed` tells whether the value stands in
a list. -/
def build? (table : Key) (name : Bytes) (listed : Bool) (value : Value) :
    Nat → Document → Option Document
  | 0, _ => none
  | fuel + 1, document =>
      match value with
      | .array items =>
          items.foldlM (fun built item => build? table name true item fuel built)
            (document.record table name true)
      | .table entries => do
          let key := table ++ [name]
          let implied := document.imply key
          let opened ← if listed then implied.openListed? key else implied.openTable? key
          entries.foldlM (fun built entry => assign? key entry.1 entry.2 fuel built) opened
      | _ => some document

end

/-- The document after a statement, and the table that is open then. -/
def add? (fuel : Nat) (state : Key × Document) (statement : Statement) :
    Option (Key × Document) := do
  let (table, document) := state
  match statement with
  | .header key =>
      let opened ← document.openTable? key
      return (key, (opened.record key [] false).note key)
  | .listHeader key =>
      let opened ← document.openListed? key
      return (key, (opened.record key [] false).note key)
  | .assignment key value => return (table, ← document.assign? table key value fuel)

/-- The document that statements make. -/
def ofStatements? (fuel : Nat) (statements : List Statement) : Option Document :=
  (statements.foldlM (add? fuel) ([], {})).map Prod.snd

end Document

end ScriptCompiler.Toml
