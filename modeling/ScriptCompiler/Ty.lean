import ScriptCompiler.Text.Rune

/-!
# Types

The script language has five types of values, a type for what has none, and types of functions.
There are no implicit conversions: two values meet only when their types are equal.
-/

namespace ScriptCompiler

/-- A type without parts. -/
inductive BasicType where
  /-- The type of nothing that is well formed. -/
  | invalid
  /-- The type of a call without a result. -/
  | void
  /-- 32-bit integers. -/
  | int
  /-- 64-bit floating-point numbers. -/
  | float
  /-- Truth values. -/
  | bool
  /-- Texts. -/
  | string
  deriving DecidableEq, Repr, Inhabited

namespace BasicType

/-- The name of a type. -/
def name : BasicType → Bytes
  | .invalid => "<invalid>"
  | .void => "void"
  | .int => "int"
  | .float => "float"
  | .bool => "bool"
  | .string => "string"

/-- The type that a program writes with a name. -/
def ofName? (name : Bytes) : Option BasicType :=
  [BasicType.int, .float, .bool, .string, .void].find? fun type => type.name == name

/-- Equality of types; the invalid type equals none, itself included. -/
def agrees (type other : BasicType) : Bool := type == other && type != .invalid

/-- Whether a value of the type may be stored in a place of the other type. -/
def assignableTo (type target : BasicType) : Bool := type != .void && type.agrees target

/-- Whether arithmetic works on the type. -/
def isNumeric : BasicType → Bool
  | .int | .float => true
  | _ => false

end BasicType

/-- The parameters and the result of a function. -/
structure Signature where
  /-- The types of the parameters. -/
  params : List BasicType
  /-- The type of the result. -/
  result : BasicType
  /-- Whether any number of further arguments may follow. -/
  variadic : Bool := false
  deriving DecidableEq, Repr, Inhabited

/-- A type.  The result of a function may be left out. -/
inductive Ty where
  /-- A type without parts. -/
  | basic (type : BasicType)
  /-- The type of a function. -/
  | function (params : List Ty) (result : Option Ty) (variadic : Bool)
  deriving Repr, Inhabited

namespace Ty

/-- Whether the type is the type of nothing. -/
def isVoid : Ty → Bool
  | .basic .void => true
  | _ => false

/-- Whether the type is that of truth values. -/
def isBoolean : Ty → Bool
  | .basic .bool => true
  | _ => false

/-- Whether arithmetic works on the type. -/
def isNumeric : Ty → Bool
  | .basic type => type.isNumeric
  | .function .. => false

/-- The name of the kind of a type. -/
def kindName : Ty → Bytes
  | .basic type => type.name
  | .function .. => "func"

/-- The names of the kinds of types in the order of their numbers. -/
def kindNames : List Bytes := ["<invalid>", "void", "int", "float", "bool", "string", "func"]

/-- The name of the kind with a number; numbers without a kind count as invalid. -/
def kindNameOfCode (code : Int) : Bytes :=
  if code < 0 then "<invalid>" else (kindNames[code.toNat]?).getD "<invalid>"

/-- The written form of a function type whose parts are written already; a result that is void or
left out is not written. -/
def functionText (params : List Bytes) (result : Option Bytes) (variadic : Bool) : Bytes :=
  let parts := params ++ if variadic then [Bytes.ofString "..."] else []
  "func(" ++ Bytes.join ", " parts ++ ")" ++
    match result with
    | some text => " " ++ text
    | none => []

mutual

/-- The written form of a type. -/
def text : Ty → Bytes
  | .basic type => type.name
  | .function params result variadic =>
      functionText (texts params)
        (match result with
          | some type => if type.isVoid then none else some (text type)
          | none => none)
        variadic

/-- The written forms of a list of types. -/
def texts : List Ty → List Bytes
  | [] => []
  | type :: types => text type :: texts types

end

mutual

/-- Equality of types.  It has no answer when it comes to a left-hand function whose result is left
out. -/
def agrees : Ty → Ty → Option Bool
  | .basic type, .basic other => some (type.agrees other)
  | .basic _, .function .. => some false
  | .function .., .basic _ => some false
  | .function params result variadic, .function params' result' variadic' =>
      if variadic != variadic' || params.length != params'.length then some false
      else
        match result with
        | none => none
        | some type =>
            match result' with
            | none => some false
            | some other =>
                match agrees type other with
                | some true => allAgree params params'
                | answer => answer

/-- Equality of two lists of types, from the first pair to the last. -/
def allAgree : List Ty → List Ty → Option Bool
  | type :: types, other :: others =>
      match agrees type other with
      | some true => allAgree types others
      | answer => answer
  | _, _ => some true

end

/-- Whether a value of the type may be stored in a place of the other type; functions are no
values. -/
def assignableTo : Ty → Ty → Bool
  | .basic type, .basic target => type.assignableTo target
  | _, _ => false

/-- The type of a function with a signature. -/
def ofSignature (signature : Signature) : Ty :=
  .function (signature.params.map .basic) (some (.basic signature.result)) signature.variadic

/-- The type itself, if it has no parts. -/
def basic? : Ty → Option BasicType
  | .basic type => some type
  | .function .. => none

/-- The signature of a function type whose parameters and result have no parts. -/
def signature? : Ty → Option Signature
  | .function params (some (.basic result)) variadic =>
      (params.mapM basic?).map fun types => { params := types, result, variadic }
  | _ => none

end Ty

/-- The written form of a signature. -/
def Signature.text (signature : Signature) : Bytes :=
  Ty.functionText (signature.params.map BasicType.name)
    (if signature.result == .void then none else some signature.result.name) signature.variadic

end ScriptCompiler
