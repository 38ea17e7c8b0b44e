import ScriptCompiler.Lowering.State

/-!
# Lowering expressions

An expression becomes instructions that compute its value.  Operands are evaluated from left to
right; the right operand of a logical operator has blocks of its own, which are passed by when the
left operand decides.
-/

namespace ScriptCompiler.Lowering

open IR

/-- The operation of an operator on two operands of a type. -/
def binaryOpcode? : BasicType → TokenKind → Option BinaryOpcode
  | .int, .plus => some .add
  | .int, .minus => some .sub
  | .int, .star => some .mul
  | .int, .slash => some .div
  | .int, .percent => some .mod
  | .int, .equal => some .eq
  | .int, .notEqual => some .ne
  | .int, .less => some .lt
  | .int, .lessEqual => some .le
  | .int, .greater => some .gt
  | .int, .greaterEqual => some .ge
  | .float, .plus => some .fadd
  | .float, .minus => some .fsub
  | .float, .star => some .fmul
  | .float, .slash => some .fdiv
  | .float, .percent => some .fmod
  | .float, .equal => some .feq
  | .float, .notEqual => some .fne
  | .float, .less => some .flt
  | .float, .lessEqual => some .fle
  | .float, .greater => some .fgt
  | .float, .greaterEqual => some .fge
  | .bool, .equal => some .eq
  | .bool, .notEqual => some .ne
  | _, _ => none

/-- The operation of an operator on one operand of a type. -/
def unaryOpcode? : BasicType → TokenKind → Option UnaryOpcode
  | .int, .minus => some .neg
  | .float, .minus => some .fneg
  | .bool, .bang => some .not
  | _, _ => none

/-- The operator that a compound assignment applies before it stores. -/
def compoundOperator? : TokenKind → Option TokenKind
  | .plusAssign => some .plus
  | .minusAssign => some .minus
  | .starAssign => some .star
  | .slashAssign => some .slash
  | _ => none

/-- The name of the output function, which a declaration of the same name hides. -/
def printName : Bytes := "print"

/-- The external function that output is made with: a format and what it speaks of. -/
def formatter : External := ⟨"printf", { params := [.string], result := .int, variadic := true }⟩

/-- The format in which a value of a type is printed; truth values print as numbers. -/
def printFormat? : BasicType → Option Bytes
  | .int | .bool => some "%d\n"
  | .float => some "%f\n"
  | .string => some "%s\n"
  | .void | .invalid => none

/-- The value of a literal. -/
def lowerLiteral : Literal → Build Value
  | .int value => newConstant (.int value)
  | .float value => newConstant (.float value)
  | .bool value => newConstant (.bool value)
  | .string content => newString content

/-- The variable or parameter that a name stands for. -/
def lookupVariable (context : Context) (identifier : Identifier) : Build Symbol := do
  let symbol ← onTable context fun table => table.resolve context identifier.name identifier.first
  if symbol.kind == .function then
    refuse context identifier.first (.functionAsValue identifier.name)
  return symbol

/-- The content of a slot. -/
def loadSlot (slot : Place) : Build Value := do
  let dest ← freshTemp slot.type
  emit (.load dest (.slot slot))
  return .temp dest

/-- An operator applied to two values; they must have one type, and the operator a meaning for
it. -/
def applyBinary (context : Context) (operator : TokenKind) (lexeme : Bytes) (position : Position)
    (left right : Value) : Build Value := do
  if !left.type.agrees right.type then
    refuse context position (.mismatch left.type right.type lexeme)
  match binaryOpcode? left.type operator with
  | none => refuse context position (.undefinedOperator lexeme left.type)
  | some opcode =>
      let dest ← freshTemp (if opcode.isComparison then .bool else left.type)
      emit (.binary opcode dest left right)
      return .temp dest

/-- An operator applied to one value. -/
def applyUnary (context : Context) (operator : Token) (operand : Value) : Build Value :=
  match unaryOpcode? operand.type operator.kind with
  | none => refuse context operator.position (.undefinedOperator operator.lexeme operand.type)
  | some opcode => do
      let dest ← freshTemp operand.type
      emit (.unary opcode dest operand)
      return .temp dest

/-- An operand of a logical operator must be a truth value. -/
def requireTruth (context : Context) (operator : Token) (place : Position) (value : Value) :
    Build Unit := do
  if value.type != .bool then
    refuse context place (.logicalOperand operator.lexeme value.type)

/-- Whether a logical operator is the conjunction, and the name of its blocks. -/
def logicalName (operator : Token) : Bool × Bytes :=
  if operator.kind == .bothAnd then (true, "and") else (false, "or")

/-- Go to `rest` if a logical operator needs its right operand, and to `done` otherwise. -/
def branchLogical (conjunction : Bool) (first : Value) (rest done : BlockName) : Build Unit :=
  if conjunction then branch first rest done else branch first done rest

/-- A logical operator behind its left operand.  The result is kept in a slot, which holds the left
operand when the right one is passed by. -/
def lowerLogical (context : Context) (operator : Token) (place : Position) (first : Value)
    (right : Build Value) : Build Value := do
  let (conjunction, label) := logicalName operator
  let result ← newSlot .bool label
  emit (.store (.slot result) first)
  let rest ← newBlock (label ++ ".rhs")
  let done ← newBlock (label ++ ".end")
  branchLogical conjunction first rest done
  enter rest
  let second ← right
  requireTruth context operator place second
  emit (.store (.slot result) second)
  jump done
  enter done
  loadSlot result

/-- Store a value in the place of a variable, which keeps its type. -/
def storeVariable (context : Context) (symbol : Symbol) (slot : Place) (place : Position)
    (value : Value) : Build Value := do
  if !value.type.assignableTo slot.type then
    refuse context place (.assignedType value.type symbol.name slot.type)
  emit (.store (.slot slot) value)
  return value

/-- What a call refers to. -/
inductive Target where
  /-- A declared function. -/
  | declared (name : Bytes) (signature : Signature)
  /-- The output function. -/
  | print

/-- What the name of a callee stands for: a declared function, or the output function where nothing
else is declared. -/
def resolveCallee (context : Context) (callee : Identifier) : Build Target := do
  let table ← tableAt context
  match table.resolve context callee.name callee.first with
  | .error diagnostic => if callee.name == printName then return .print else throw diagnostic
  | .ok (symbol, table) =>
      modify fun state => { state with table }
      match symbol.type >>= Ty.signature? with
      | none => refuse context callee.first (.notFunction symbol.name)
      | some signature => return .declared symbol.name signature

/-- Print a value in the format of its type. -/
def emitPrint (context : Context) (place : Position) (value : Value) : Build Value := do
  match printFormat? value.type with
  | none => refuse context place (.unprintable value.type)
  | some format =>
      modify fun state => { state with externals := declareExternal state.externals formatter }
      let text ← newString format
      emit (.call none ⟨.external, formatter.name⟩ [text, value])
      noValue

/-- Call a declared function. -/
def emitCall (name : Bytes) (signature : Signature) (arguments : List Value) : Build Value := do
  if signature.result == .void then
    emit (.call none ⟨.defined, name⟩ arguments)
    noValue
  else
    let dest ← freshTemp signature.result
    emit (.call (some dest) ⟨.defined, name⟩ arguments)
    return .temp dest

mutual

/-- The value of an expression, computed by instructions in the current block and, behind a logical
operator, in new ones. -/
def lowerExpr (context : Context) : Expr → Build Value
  | .literal _ value => lowerLiteral value
  | .variable identifier => do
      let symbol ← lookupVariable context identifier
      loadSlot (← slotOf symbol)
  | .group _ inner _ => lowerExpr context inner
  | .binary left operator right => do
      let first ← lowerExpr context left
      let second ← lowerExpr context right
      applyBinary context operator.kind operator.lexeme operator.position first second
  | .logical left operator right => do
      let first ← lowerExpr context left
      requireTruth context operator left.first first
      lowerLogical context operator right.first first (lowerExpr context right)
  | .unary operator operand => do
      let value ← lowerExpr context operand
      applyUnary context operator value
  | .assignment target operator value => do
      let symbol ← lookupVariable context target
      if !symbol.isAssignable then
        refuse context target.first (.notAssignable symbol.name)
      let slot ← slotOf symbol
      let assigned ← lowerExpr context value
      match compoundOperator? operator.kind with
      | none => storeVariable context symbol slot value.first assigned
      | some arithmetic =>
          let present ← loadSlot slot
          let combined ← applyBinary context arithmetic (operator.lexeme.take 1) operator.position
            present assigned
          storeVariable context symbol slot value.first combined
  | .call callee arguments _ => do
      match ← resolveCallee context callee with
      | .declared name signature =>
          if arguments.length != signature.params.length then
            refuse context callee.first
              (.argumentCount name signature.params.length arguments.length)
          let values ← lowerArguments context name 1 signature.params arguments
          emitCall name signature values
      | .print =>
          match arguments with
          | [argument] =>
              let value ← lowerExpr context argument
              emitPrint context argument.first value
          | _ => refuse context callee.first (.printCount arguments.length)

/-- The values of the arguments of a call, the first of which has the given number; each must have
the type of its parameter. -/
def lowerArguments (context : Context) (name : Bytes) (number : Nat) :
    List BasicType → List Expr → Build (List Value)
  | wanted :: types, argument :: arguments => do
      let value ← lowerExpr context argument
      if !value.type.assignableTo wanted then
        refuse context argument.first (.argumentType number name wanted value.type)
      let values ← lowerArguments context name (number + 1) types arguments
      return value :: values
  | _, _ => return []

end

end ScriptCompiler.Lowering
