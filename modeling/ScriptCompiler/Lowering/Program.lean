import ScriptCompiler.Lowering.Entry
import ScriptCompiler.Lowering.Stmt

/-!
# Lowering programs

First all functions of a program are declared, then the entry function is chosen, and then bodies
are lowered one after the other.  The statements at top level belong to the entry function alone.
-/

namespace ScriptCompiler.Lowering

open IR

/-- What lowering a program yields: a module, and the scopes of the program. -/
structure Built where
  /-- The module. -/
  module : Module
  /-- The scopes. -/
  table : ScopeTable

/-- The variables that nothing refers to, scope by scope. -/
def Built.unused (built : Built) : List Symbol := built.table.unused

/-- A declared function and its body. -/
structure Declared where
  /-- The declaration. -/
  declaration : FunctionDecl
  /-- The function, still empty. -/
  function : Function

/-- Declare a function in the root context. -/
def declareFunction (declaration : FunctionDecl) : Build Declared := do
  let params ← declaration.params.mapM fun param => do
    return (param.name.name, ← valueType ScopeTable.root param.type)
  let result ← match declaration.result with
    | some identifier => resultType ScopeTable.root identifier
    | none => pure .void
  let signature : Signature := { params := params.map Prod.snd, result }
  let _ ← onTable ScopeTable.root fun table => table.declare ScopeTable.root
    { name := declaration.name.name, kind := .function, type := some (.ofSignature signature),
      position := declaration.name.first }
  return ⟨declaration, Function.ofSignature declaration.name.name params result⟩

/-- Turn to a function that is still empty. -/
def beginFunction (function : Function) : Build Unit :=
  modify fun state =>
    { state with
      function
      current := ((function.blocks.head?).map Block.name).getD ⟨Function.entry, []⟩ }

/-- End every open block with a return, of the zero of the result type if there is one. -/
def closeBlocks : List Block → Build Unit
  | [] => return
  | block :: rest => do
      if !block.isTerminated then
        enter block.name
        let result := (← get).function.result
        if result == .void then emit (.ret none)
        else emit (.ret (some (← zeroValue result)))
      closeBlocks rest

/-- End the function and yield it. -/
def finishFunction : Build Function := do
  closeBlocks (← get).function.blocks
  return (← get).function

/-- Give each parameter a slot that holds its value. -/
def spillParams (context : Context) : List (Param × Place) → Build Unit
  | [] => return
  | (param, place) :: rest => do
      let symbol ← onTable context fun table => table.declare context
        { name := param.name.name, kind := .parameter, type := some (.basic place.type),
          position := param.name.first }
      holdValue symbol place.type (.param place)
      spillParams context rest

/-- Lower the body of a declared function in a scope inside `parent`, behind the statements
`prologue`, which belong to `parent` itself. -/
def lowerFunction (parent : Context) (prologue : List Stmt) (declared : Declared) :
    Build Function := do
  beginFunction declared.function
  lowerStmts parent none prologue
  let declaration := declared.declaration
  let scope ← openScope parent .function declaration.name.name
  spillParams scope (declaration.params.zip declared.function.params)
  lowerStmts scope none declaration.body
  finishFunction

/-- Lower the statements at top level as a function of their own. -/
def lowerTopLevel (context : Context) (name : Bytes) (statements : List Stmt) : Build Function := do
  beginFunction (Function.ofSignature name [] .int)
  lowerStmts context none statements
  finishFunction

/-- The module of a program, apart from constants and declarations. -/
def lowerItems (options : EntryOptions) (stem : Bytes) (program : Program) :
    Build (Bytes × List Function) := do
  let declared ← program.functions.mapM declareFunction
  let topLevel ← openScope ScopeTable.root .topLevel "<toplevel>"
  let isEntry : Declared → Bool := fun item =>
    options.policy == .auto && item.declaration.name.name == options.entryName
  if declared.any isEntry then
    let functions ← declared.mapM fun item =>
      if isEntry item then lowerFunction topLevel program.statements item
      else lowerFunction ScopeTable.root [] item
    return (options.entryName, functions)
  else
    let name := synthesizedEntry stem
    match program.functions.find? fun declaration => declaration.name.name == name with
    | some declaration => refuse ScopeTable.root declaration.name.first (.reservedName name)
    | none =>
        let entry ← lowerTopLevel topLevel name program.statements
        let functions ← declared.mapM (lowerFunction ScopeTable.root [])
        return (name, entry :: functions)

/-- Lower the program of a file. -/
def build (options : EntryOptions) (file : SourceFile) (program : Program) :
    Except Diagnostic Built := do
  let empty := Function.ofSignature [] [] .void
  let start : State :=
    { table := .ofFile file, function := empty, current := ⟨Function.entry, []⟩ }
  let ((entry, functions), state) ← (lowerItems options file.stem program).run start
  return {
    module :=
      { name := file.stem, functions, externals := state.externals,
        strings := state.strings, entry }
    table := state.table }

end ScriptCompiler.Lowering
