import ScriptCompiler.Number.Decimal
import ScriptCompiler.Ty

/-!
# Values

What instructions read: constants, parameters, stack slots, results of other instructions and
the string constants of the module.  Parameters, slots and results are numbered within their
function, and the number is what tells them apart.
-/

namespace ScriptCompiler.IR

/-- A constant. -/
inductive Constant where
  /-- An integer. -/
  | int (value : Int)
  /-- A floating-point number. -/
  | float (value : Float)
  /-- A truth value. -/
  | bool (value : Bool)
  /-- A constant of integer type that holds nothing. -/
  | nothing

namespace Constant

/-- Floating-point numbers are written positionally up to five digits behind the first one. -/
def floatLayout : Decimal.Layout := { beyond := 6 }

/-- The value of a constant. -/
def text : Constant → Bytes
  | .int value => Bytes.ofInt value
  | .float value => Binary64.text floatLayout value
  | .bool true => "true"
  | .bool false => "false"
  | .nothing => "<nil>"

/-- The type of a constant. -/
def type : Constant → BasicType
  | .int _ | .nothing => .int
  | .float _ => .float
  | .bool _ => .bool

end Constant

/-- A named value of a function: a parameter or a stack slot. -/
structure Place where
  /-- Its number in the function. -/
  id : Nat
  /-- Its name. -/
  name : Bytes
  /-- The type of what it holds. -/
  type : BasicType
  deriving DecidableEq, Repr

/-- The result of an instruction. -/
structure Temp where
  /-- Its number in the function. -/
  id : Nat
  /-- Its type. -/
  type : BasicType
  deriving DecidableEq, Repr

/-- The result as written. -/
def Temp.text (temp : Temp) : Bytes := "t" ++ Bytes.ofNat temp.id

/-- A slot as written. -/
def Place.text (place : Place) : Bytes := place.name ++ "." ++ Bytes.ofNat place.id

/-- A parameter as written. -/
def Place.paramText (place : Place) : Bytes := "param(" ++ place.text ++ ")"

/-- The name of a string constant of a module. -/
def stringName (index : Nat) : Bytes := ".str." ++ Bytes.ofNat index

/-- What an instruction reads. -/
inductive Value where
  /-- A constant. -/
  | constant (constant : Constant)
  /-- A parameter of the function. -/
  | param (place : Place)
  /-- The address of a stack slot. -/
  | slot (place : Place)
  /-- The result of an instruction. -/
  | temp (temp : Temp)
  /-- A string constant of the module, by its place in the list. -/
  | string (index : Nat)
  /-- A string constant that no module holds. -/
  | stray (name : Bytes)

namespace Value

/-- The type of a value; for a slot, of what it holds. -/
def type : Value → BasicType
  | .constant value => value.type
  | .param place => place.type
  | .slot place => place.type
  | .temp result => result.type
  | .string _ | .stray _ => .string

/-- A value as written. -/
def text : Value → Bytes
  | .constant value => "const(" ++ value.text ++ ")"
  | .param place => place.paramText
  | .slot place => place.text
  | .temp result => result.text
  | .string index => "@" ++ stringName index
  | .stray name => "@" ++ name

/-- The number of a value among the numbered values of its function. -/
def id? : Value → Option Nat
  | .param place => some place.id
  | .slot place => some place.id
  | .temp result => some result.id
  | _ => none

end Value

end ScriptCompiler.IR
