import ScriptCompiler.Text.Quoted

/-!
# The entry function

How the function that execution starts at is chosen.
-/

namespace ScriptCompiler

/-- How the entry function of a module is chosen. -/
inductive EntryPolicy where
  /-- The program's own entry function, which runs the statements at top level first; without one, a
  function made for these statements. -/
  | auto
  /-- Always a function made for the statements at top level. -/
  | always
  deriving DecidableEq, Repr, Inhabited

namespace EntryPolicy

/-- The name of a policy. -/
def name : EntryPolicy → Bytes
  | .auto => "auto"
  | .always => "always"

/-- The name of the policy with a number; every number but one stands for the first policy. -/
def nameOfCode (code : Int) : Bytes :=
  if code = 1 then EntryPolicy.always.name else EntryPolicy.auto.name

/-- The policy with a name; the empty name stands for the first policy. -/
def ofName (name : Bytes) : Except Bytes EntryPolicy :=
  if name.isEmpty || name == EntryPolicy.auto.name then .ok .auto
  else if name == EntryPolicy.always.name then .ok .always
  else .error ("unknown entry policy " ++ Quoted.text name ++ " (want auto or always)")

end EntryPolicy

/-- What the choice of the entry function depends on. -/
structure EntryOptions where
  /-- The name of the program's own entry function. -/
  name : Bytes := "main"
  /-- How it is chosen. -/
  policy : EntryPolicy := .auto
  deriving DecidableEq, Repr

/-- The name of the program's own entry function when none is given. -/
def EntryOptions.defaultName : Bytes := "main"

/-- The name of the program's own entry function. -/
def EntryOptions.entryName (options : EntryOptions) : Bytes :=
  if options.name.isEmpty then defaultName else options.name

/-- The name of the function made for the statements at top level of a file with a stem. -/
def synthesizedEntry (stem : Bytes) : Bytes := "load_" ++ stem

end ScriptCompiler
