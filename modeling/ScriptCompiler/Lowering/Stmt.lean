import ScriptCompiler.Lowering.Expr

/-!
# Lowering statements

A statement becomes instructions and blocks.  Behind a block that has ended, a statement opens a
block of its own that nothing leads to.
-/

namespace ScriptCompiler.Lowering

open IR

/-- Where the jumps out of the innermost loop go. -/
structure LoopTargets where
  /-- The block behind the loop. -/
  done : BlockName
  /-- The block that begins the next round. -/
  next : BlockName

/-- Make sure that the current block takes instructions. -/
def openBlock : Build Unit := do
  if !(← isOpen) then
    enter (← newBlock "dead")

/-- The initial value of a variable, which must have the declared type, if there is one. -/
def lowerInitial (context : Context) (name : Bytes) (declared : Option BasicType)
    (expression : Expr) : Build Value := do
  let value ← lowerExpr context expression
  if value.type == .void then refuse context expression.first (.emptyInitial name)
  match declared with
  | some type =>
      if !value.type.assignableTo type then
        refuse context expression.first (.initialType name type value.type)
      return value
  | none => return value

/-- The value that a variable of a type begins with: the given one, or the zero of the type. -/
def initialValue (type : BasicType) : Option Value → Build Value
  | some value => return value
  | none => zeroValue type

/-- The declaration of a variable: its initial value is computed before the name is declared. -/
def lowerVariable (context : Context) (declaration : VarDecl) : Build Unit := do
  let name := declaration.name.name
  let declared ← declaration.type.mapM (valueType context)
  let initial ← declaration.initial.mapM (lowerInitial context name declared)
  match declared.or (initial.map Value.type) with
  | none => refuse context declaration.first (.untypedVariable name)
  | some type =>
      let symbol ← onTable context fun table => table.declare context
        { name, kind := .variable, type := some (.basic type), position := declaration.name.first }
      let value ← initialValue type initial
      holdValue symbol type value

/-- What a loop does before its first round. -/
def lowerStart (context : Context) : LoopStart → Build Unit
  | .variable declaration => lowerVariable context declaration
  | .expression statement => do
      let _ ← lowerExpr context statement.expression

/-- A condition, which must be a truth value. -/
def lowerCondition (context : Context) (owner : Bytes) (expression : Expr) : Build Value := do
  let value ← lowerExpr context expression
  if value.type != .bool then
    refuse context expression.first (.condition owner value.type)
  return value

/-- A return; its value must have the type of the function's result. -/
def lowerReturn (context : Context) (first : Position) : Option Expr → Build Unit
  | none => do
      let function := (← get).function
      if function.result != .void then
        refuse context first (.missingResult function.name function.result)
      emit (.ret none)
  | some expression => do
      let value ← lowerExpr context expression
      let function := (← get).function
      if function.result == .void then
        refuse context expression.first (.unwantedResult function.name)
      if !value.type.assignableTo function.result then
        refuse context expression.first (.resultType function.name value.type function.result)
      emit (.ret (some value))

/-- Do something in a new scope inside a context. -/
def inScope (context : Context) (kind : ScopeKind) (label : Bytes) (body : Context → Build Unit) :
    Build Unit := do
  body (← openScope context kind label)

/-- A conditional without an alternative. -/
def lowerWhen (condition : Value) (consequent : Build Unit) : Build Unit := do
  let thenBlock ← newBlock "if.then"
  let endBlock ← newBlock "if.end"
  branch condition thenBlock endBlock
  enter thenBlock
  consequent
  jumpIfOpen endBlock
  enter endBlock

/-- A conditional with an alternative. -/
def lowerChoice (condition : Value) (consequent alternative : Build Unit) : Build Unit := do
  let thenBlock ← newBlock "if.then"
  let elseBlock ← newBlock "if.else"
  let endBlock ← newBlock "if.end"
  branch condition thenBlock elseBlock
  enter thenBlock
  consequent
  jumpIfOpen endBlock
  enter elseBlock
  alternative
  jumpIfOpen endBlock
  enter endBlock

/-- The beginning of a round: the condition, if there is one, decides whether the body follows. -/
def lowerTest (scope : Context) (bodyBlock endBlock : BlockName) : Option Expr → Build Unit
  | some condition => do
      let value ← lowerCondition scope "loop" condition
      branch value bodyBlock endBlock
  | none => jump bodyBlock

/-- The end of a round: what leads to the next one, in a block of its own. -/
def lowerAdvance (scope : Context) (postBlock condBlock : BlockName) : Option Expr → Build Unit
  | some expression => do
      enter postBlock
      let _ ← lowerExpr scope expression
      jump condBlock
  | none => return

/-- The rounds of a loop. -/
def lowerRounds (scope : Context) (condition advance : Option Expr)
    (body : LoopTargets → Build Unit) : Build Unit := do
  let condBlock ← newBlock "loop.cond"
  let bodyBlock ← newBlock "loop.body"
  let postBlock ← advance.mapM fun _ => newBlock "loop.post"
  let endBlock ← newBlock "loop.end"
  let next := postBlock.getD condBlock
  jump condBlock
  enter condBlock
  lowerTest scope bodyBlock endBlock condition
  enter bodyBlock
  body ⟨endBlock, next⟩
  jumpIfOpen next
  lowerAdvance scope next condBlock advance
  enter endBlock

mutual

/-- A statement in a context, inside the given loop. -/
def lowerStmt (context : Context) (loop : Option LoopTargets) : Stmt → Build Unit
  | .variable declaration => do
      openBlock
      lowerVariable context declaration
  | .expression statement => do
      openBlock
      let _ ← lowerExpr context statement.expression
  | .block _ body _ => do
      openBlock
      inScope context .block "block" fun inner => lowerStmts inner loop body
  | .conditional _ condition _ consequent _ alternative => do
      openBlock
      let value ← lowerCondition context "if" condition
      match alternative with
      | none =>
          lowerWhen value
            (inScope context .block "if.then" fun inner => lowerStmts inner loop consequent)
      | some (.block _ body _) =>
          lowerChoice value
            (inScope context .block "if.then" fun inner => lowerStmts inner loop consequent)
            (inScope context .block "if.else" fun inner => lowerStmts inner loop body)
      | some statement =>
          lowerChoice value
            (inScope context .block "if.then" fun inner => lowerStmts inner loop consequent)
            (lowerStmt context loop statement)
  | .loop _ start condition advance _ body _ => do
      openBlock
      inScope context .loop "loop" fun scope => do
        start.forM (lowerStart scope)
        lowerRounds scope condition advance fun targets =>
          inScope scope .block "loop.body" fun inner => lowerStmts inner (some targets) body
  | .return_ first value _ => do
      openBlock
      lowerReturn context first value
  | .break_ keyword => do
      openBlock
      match loop with
      | none => refuse context keyword.position .strayBreak
      | some targets => jump targets.done
  | .continue_ keyword => do
      openBlock
      match loop with
      | none => refuse context keyword.position .strayContinue
      | some targets => jump targets.next
  | .function first => do
      openBlock
      refuse context first .nestedFunction

/-- Statements one after the other. -/
def lowerStmts (context : Context) (loop : Option LoopTargets) : List Stmt → Build Unit
  | [] => return
  | statement :: rest => do
      lowerStmt context loop statement
      lowerStmts context loop rest

end

end ScriptCompiler.Lowering
