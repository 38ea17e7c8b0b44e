import ScriptCompiler.Diagnostic
import ScriptCompiler.Ty

/-!
# What a program may get wrong

The violations of the rules on types and control that lowering finds.
-/

namespace ScriptCompiler

/-- A violation found while a program is lowered. -/
inductive LoweringFault where
  /-- A type name without a type. -/
  | unknownType (name : Bytes)
  /-- A variable or parameter of the type of nothing. -/
  | voidValue
  /-- A function with the name of the entry function. -/
  | reservedName (name : Bytes)
  /-- An initial value that is none. -/
  | emptyInitial (name : Bytes)
  /-- An initial value of another type than the declared one. -/
  | initialType (name : Bytes) (declared actual : BasicType)
  /-- A variable with neither a type nor an initial value. -/
  | untypedVariable (name : Bytes)
  /-- A condition that is no truth value. -/
  | condition (owner : Bytes) (actual : BasicType)
  /-- A return without a value from a function with a result. -/
  | missingResult (function : Bytes) (wanted : BasicType)
  /-- A return with a value from a function without a result. -/
  | unwantedResult (function : Bytes)
  /-- A return of a value of another type than the result. -/
  | resultType (function : Bytes) (actual wanted : BasicType)
  /-- A jump behind a loop outside of any. -/
  | strayBreak
  /-- A jump to the next round outside of any loop. -/
  | strayContinue
  /-- A function declaration in the place of a statement. -/
  | nestedFunction
  /-- The name of a function in the place of a value. -/
  | functionAsValue (name : Bytes)
  /-- Operands of different types. -/
  | mismatch (left right : BasicType) (operator : Bytes)
  /-- An operator that has no meaning for the type of its operands. -/
  | undefinedOperator (operator : Bytes) (type : BasicType)
  /-- An operand of a logical operator that is no truth value. -/
  | logicalOperand (operator : Bytes) (actual : BasicType)
  /-- An assignment to something that holds no value. -/
  | notAssignable (name : Bytes)
  /-- An assignment of a value of another type. -/
  | assignedType (actual : BasicType) (name : Bytes) (wanted : BasicType)
  /-- A call of something that is no function. -/
  | notFunction (name : Bytes)
  /-- A call with the wrong number of arguments. -/
  | argumentCount (name : Bytes) (wanted actual : Nat)
  /-- An argument of another type than the parameter. -/
  | argumentType (number : Nat) (name : Bytes) (wanted actual : BasicType)
  /-- The output function called with other than one argument. -/
  | printCount (actual : Nat)
  /-- A value that cannot be printed. -/
  | unprintable (actual : BasicType)
  deriving DecidableEq, Repr

namespace LoweringFault

/-- The category of a violation. -/
def category : LoweringFault → Category
  | .reservedName _ => .duplicateName
  | .untypedVariable _ | .strayBreak | .strayContinue => .invalidSyntax
  | .nestedFunction => .unknownNode
  | _ => .typeError

/-- What a violation says. -/
def message : LoweringFault → Bytes
  | .unknownType name => "unknown type '" ++ name ++ "'"
  | .voidValue => "void is not a value type"
  | .reservedName name => "'" ++ name ++ "' is reserved for the entry function"
  | .emptyInitial name => "initializer of '" ++ name ++ "' has no value"
  | .initialType name declared actual =>
      "cannot initialize '" ++ name ++ "' of type " ++ declared.name ++ " with a value of type " ++
        actual.name
  | .untypedVariable name => "variable '" ++ name ++ "' needs a type or an initializer"
  | .condition owner actual => owner ++ " condition must be bool, got " ++ actual.name
  | .missingResult function wanted => function ++ " must return a value of type " ++ wanted.name
  | .unwantedResult function => function ++ " does not return a value"
  | .resultType function actual wanted =>
      "cannot return a value of type " ++ actual.name ++ " from " ++ function ++ ", want " ++
        wanted.name
  | .strayBreak => "break outside of a loop"
  | .strayContinue => "continue outside of a loop"
  | .nestedFunction => "no lowering for statement *ast.FuncDecl"
  | .functionAsValue name => "function '" ++ name ++ "' used as a value"
  | .mismatch left right operator =>
      "mismatched types " ++ left.name ++ " and " ++ right.name ++ " for '" ++ operator ++ "'"
  | .undefinedOperator operator type =>
      "operator '" ++ operator ++ "' is not defined on " ++ type.name
  | .logicalOperand operator actual =>
      "operand of '" ++ operator ++ "' must be bool, got " ++ actual.name
  | .notAssignable name => "cannot assign to '" ++ name ++ "'"
  | .assignedType actual name wanted =>
      "cannot assign a value of type " ++ actual.name ++ " to '" ++ name ++ "' of type " ++
        wanted.name
  | .notFunction name => "'" ++ name ++ "' is not a function"
  | .argumentCount name wanted actual =>
      name ++ " expects " ++ Bytes.ofNat wanted ++ " arguments, got " ++ Bytes.ofNat actual
  | .argumentType number name wanted actual =>
      "argument " ++ Bytes.ofNat number ++ " of " ++ name ++ " must be " ++ wanted.name ++
        ", got " ++ actual.name
  | .printCount actual => "print expects 1 argument, got " ++ Bytes.ofNat actual
  | .unprintable actual => "cannot print a value of type " ++ actual.name

end LoweringFault

end ScriptCompiler
