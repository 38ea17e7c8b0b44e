import ScriptCompiler.LLVM.Module
import ScriptCompiler.LLVM.Name

/-!
# LLVM listings

A module in the textual form that tools read and write.  Once a tool has changed the text, nothing
but the text is known about the module.
-/

namespace ScriptCompiler.LLVM

/-- A module as text. -/
structure Listing where
  /-- The name of the module. -/
  name : Bytes
  /-- The text. -/
  text : Bytes
  deriving DecidableEq, Repr

namespace Listing

/-- The listing of a module. -/
def ofModule (module : Module) : Listing := ⟨module.source, module.text⟩

/-- The names of the functions that the listing defines. -/
def symbols (listing : Listing) : List Bytes := definedNames listing.text

/-- Whether the listing defines a function. -/
def defines (listing : Listing) (name : Bytes) : Bool := listing.symbols.contains name

end Listing

end ScriptCompiler.LLVM
