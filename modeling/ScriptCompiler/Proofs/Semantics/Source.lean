import ScriptCompiler.Lowering.Entry
import ScriptCompiler.Proofs.Semantics.Machine
import ScriptCompiler.Syntax.Tree

/-!
# The meaning of source programs

Programs are evaluated as they are written.  Operands and arguments are evaluated from left to
right, logical operators evaluate their right operand only if the left one does not decide, a
compound assignment evaluates its right-hand side before it reads its target, and an assignment
yields the stored value.  Variables live in nested scopes.  `break` and `continue` act on the
innermost loop, and the end of a body returns the zero of the result type.

A bound limits the rounds of each loop and the depth of calls.
-/

namespace ScriptCompiler.Semantics

variable {Double : Type}

/-- An operator on two integers. -/
def wordOperation (operator : TokenKind) (left right : BitVec 32) : Computed Double :=
  match operator with
  | .plus => .value (.int (left + right))
  | .minus => .value (.int (left - right))
  | .star => .value (.int (left * right))
  | .slash => if faulty left right then .trap else .value (.int (left.sdiv right))
  | .percent => if faulty left right then .trap else .value (.int (left.srem right))
  | .equal => .value (.bool (left == right))
  | .notEqual => .value (.bool (left != right))
  | .less => .value (.bool (left.slt right))
  | .lessEqual => .value (.bool (left.sle right))
  | .greater => .value (.bool (right.slt left))
  | .greaterEqual => .value (.bool (right.sle left))
  | _ => .stuck

/-- An operator on two floating-point numbers. -/
def doubleOperation (machine : Machine Double) (operator : TokenKind) (left right : Double) :
    Computed Double :=
  match operator with
  | .plus => .value (.float (machine.add left right))
  | .minus => .value (.float (machine.sub left right))
  | .star => .value (.float (machine.mul left right))
  | .slash => .value (.float (machine.div left right))
  | .percent => .value (.float (machine.rem left right))
  | .equal => .value (.bool (machine.eq left right))
  | .notEqual => .value (.bool (machine.ne left right))
  | .less => .value (.bool (machine.lt left right))
  | .lessEqual => .value (.bool (machine.le left right))
  | .greater => .value (.bool (machine.gt left right))
  | .greaterEqual => .value (.bool (machine.ge left right))
  | _ => .stuck

/-- An operator on two values, which must be of one type. -/
def operate (machine : Machine Double) (operator : TokenKind) :
    Datum Double → Datum Double → Computed Double
  | .int left, .int right => wordOperation operator left right
  | .float left, .float right => doubleOperation machine operator left right
  | .bool left, .bool right =>
      match operator with
      | .equal => .value (.bool (left == right))
      | .notEqual => .value (.bool (left != right))
      | _ => .stuck
  | _, _ => .stuck

/-- An operator on one value. -/
def operateAlone (machine : Machine Double) : TokenKind → Datum Double → Computed Double
  | .minus, .int value => .value (.int (-value))
  | .minus, .float value => .value (.float (machine.neg value))
  | .bang, .bool value => .value (.bool !value)
  | _, _ => .stuck

/-- The arithmetic that a compound assignment does before it stores. -/
def compoundArithmetic : TokenKind → Option TokenKind
  | .plusAssign => some .plus
  | .minusAssign => some .minus
  | .starAssign => some .star
  | .slashAssign => some .slash
  | _ => none

/-- The value of a literal. -/
def literalDatum (machine : Machine Double) : Literal → Datum Double
  | .int value => .int (BitVec.ofInt 32 value)
  | .float value => .float (machine.ofFloat value)
  | .bool value => .bool value
  | .string content => .string content

/-- The format in which a value is printed; truth values print as numbers. -/
def formatOf : Datum Double → Bytes
  | .int _ | .bool _ => "%d\n"
  | .float _ => "%f\n"
  | .string _ => "%s\n"

/-- The variables of one scope in the order of their declarations. -/
abbrev Scope (Double : Type) := List (Bytes × Datum Double)

/-- What a running function sees: its scopes, the innermost first, and the output so far. -/
structure Store (Double : Type) where
  /-- The scopes. -/
  scopes : List (Scope Double)
  /-- The output. -/
  trace : Trace Double

/-- The value of the nearest variable with a name. -/
def readScopes (scopes : List (Scope Double)) (name : Bytes) : Option (Datum Double) :=
  scopes.findSome? fun scope => scope.lookup name

/-- The scopes with a new value for the nearest variable with a name. -/
def writeScopes (name : Bytes) (datum : Datum Double) : List (Scope Double) → List (Scope Double)
  | [] => []
  | scope :: outer =>
      if (scope.lookup name).isSome then
        (scope.map fun entry => if name == entry.1 then (entry.1, datum) else entry) :: outer
      else scope :: writeScopes name datum outer

namespace Store

/-- The store inside a new scope. -/
def push (store : Store Double) (scope : Scope Double) : Store Double :=
  { store with scopes := scope :: store.scopes }

/-- The store behind the innermost scope. -/
def pop (store : Store Double) : Store Double := { store with scopes := store.scopes.tail }

/-- The store with a new variable in the innermost scope. -/
def declare (store : Store Double) (name : Bytes) (datum : Datum Double) : Store Double :=
  { store with scopes := store.scopes.modifyHead fun scope => scope ++ [(name, datum)] }

/-- The store with a new value for the nearest variable with a name. -/
def write (store : Store Double) (name : Bytes) (datum : Datum Double) : Store Double :=
  { store with scopes := writeScopes name datum store.scopes }

/-- The store after a call of the output function. -/
def print (store : Store Double) (datum : Datum Double) : Store Double :=
  { store with trace := store.trace ++ [⟨formatOf datum, datum⟩] }

end Store

/-- The result of an operation, if there is one. -/
def Computed.run {α : Type} (computed : Computed Double) (trace : Trace Double)
    (next : Datum Double → Run Double α) : Run Double α :=
  match computed with
  | .value result => next result
  | .trap => .trapped trace
  | .stuck => .stuck

/-- Go on with a value that must be there. -/
def present {α β : Type} (value : Option α) (next : α → Run Double β) : Run Double β :=
  match value with
  | some datum => next datum
  | none => .stuck

/-- Go on with a truth value. -/
def truth {α : Type} (value : Option (Datum Double)) (next : Bool → Run Double α) : Run Double α :=
  match value with
  | some (.bool flag) => next flag
  | _ => .stuck

/-- A function of the source: what it runs before its own scope opens, and its own parts. -/
structure SourceFunction where
  /-- The name. -/
  name : Bytes
  /-- The statements at top level, if the function begins with them. -/
  topLevel : Option (List Stmt)
  /-- The names of the parameters. -/
  params : List Bytes
  /-- The type of the result. -/
  result : BasicType
  /-- The statements of the body. -/
  body : List Stmt

/-- The name of the output function, which a declaration of the same name hides. -/
def outputName : Bytes := "print"

section Evaluation

variable (machine : Machine Double) (declared : Bytes → Bool) (call : Call Double)

mutual

/-- The value of an expression; a call of a function without a result has none. -/
def evalExpr : Expr → Store Double → Run Double (Option (Datum Double) × Store Double)
  | .literal _ value, store => .done (some (literalDatum machine value), store)
  | .variable identifier, store =>
      present (readScopes store.scopes identifier.name) fun datum => .done (some datum, store)
  | .group _ inner _, store => evalExpr inner store
  | .binary left operator right, store =>
      (evalExpr left store).bind fun (first, store) =>
        (evalExpr right store).bind fun (second, store) =>
          present first fun first => present second fun second =>
            (operate machine operator.kind first second).run store.trace fun result =>
              .done (some result, store)
  | .logical left operator right, store =>
      (evalExpr left store).bind fun (first, store) => truth first fun flag =>
        -- The left operand decides unless it is the neutral element of the operator.
        if flag == (operator.kind == .bothAnd) then
          (evalExpr right store).bind fun (second, store) => truth second fun flag =>
            .done (some (.bool flag), store)
        else .done (some (.bool flag), store)
  | .unary operator operand, store =>
      (evalExpr operand store).bind fun (value, store) => present value fun value =>
        (operateAlone machine operator.kind value).run store.trace fun result =>
          .done (some result, store)
  | .assignment target operator value, store =>
      (evalExpr value store).bind fun (assigned, store) => present assigned fun assigned =>
        match compoundArithmetic operator.kind with
        | none => .done (some assigned, store.write target.name assigned)
        | some arithmetic =>
            present (readScopes store.scopes target.name) fun held =>
              (operate machine arithmetic held assigned).run store.trace fun result =>
                .done (some result, store.write target.name result)
  | .call callee arguments _, store =>
      (evalArguments arguments store).bind fun (data, store) =>
        if declared callee.name then
          (call callee.name data store.trace).bind fun (value, trace) =>
            .done (value, { store with trace })
        else
          match data with
          | [datum] => if callee.name == outputName then .done (none, store.print datum) else .stuck
          | _ => .stuck

/-- The values of arguments from left to right. -/
def evalArguments : List Expr → Store Double → Run Double (List (Datum Double) × Store Double)
  | [], store => .done ([], store)
  | argument :: rest, store =>
      (evalExpr argument store).bind fun (value, store) => present value fun datum =>
        (evalArguments rest store).bind fun (data, store) => .done (datum :: data, store)

end

/-- How a statement passes control on. -/
inductive Signal (Double : Type) where
  /-- To the next statement. -/
  | normal
  /-- Behind the innermost loop. -/
  | broke
  /-- To the next round of the innermost loop. -/
  | continued
  /-- To the caller. -/
  | returned (value : Option (Datum Double))

/-- The declaration of a variable; without an initial value it holds the zero of its type. -/
def evalVariable (declaration : VarDecl) (store : Store Double) : Run Double (Store Double) :=
  match declaration.initial with
  | some expression =>
      (evalExpr machine declared call expression store).bind fun (value, store) =>
        present value fun datum => .done (store.declare declaration.name.name datum)
  | none =>
      present (declaration.type >>= fun type => BasicType.ofName? type.name >>= zeroDatum machine)
        fun datum => .done (store.declare declaration.name.name datum)

/-- A condition, which must be a truth value. -/
def evalCondition (condition : Expr) (store : Store Double) : Run Double (Bool × Store Double) :=
  (evalExpr machine declared call condition store).bind fun (value, store) =>
    truth value fun flag => .done (flag, store)

/-- The test of a loop; without a condition it holds. -/
def evalTest (condition : Option Expr) (store : Store Double) : Run Double (Bool × Store Double) :=
  match condition with
  | some expression => evalCondition machine declared call expression store
  | none => .done (true, store)

/-- What a loop does before its first round. -/
def evalStart (start : Option LoopStart) (store : Store Double) : Run Double (Store Double) :=
  match start with
  | none => .done store
  | some (.variable declaration) => evalVariable machine declared call declaration store
  | some (.expression statement) =>
      (evalExpr machine declared call statement.expression store).bind fun (_, store) => .done store

/-- What leads from one round of a loop to the next one. -/
def evalAdvance (advance : Option Expr) (store : Store Double) : Run Double (Store Double) :=
  match advance with
  | none => .done store
  | some expression =>
      (evalExpr machine declared call expression store).bind fun (_, store) => .done store

/-- The value of a return statement. -/
def evalReturn (value : Option Expr) (store : Store Double) :
    Run Double (Signal Double × Store Double) :=
  match value with
  | none => .done (.returned none, store)
  | some expression =>
      (evalExpr machine declared call expression store).bind fun (value, store) =>
        .done (.returned value, store)

/-- The rounds of a loop, at most so many. -/
def evalRounds (test : Store Double → Run Double (Bool × Store Double))
    (body : Store Double → Run Double (Signal Double × Store Double))
    (advance : Store Double → Run Double (Store Double)) :
    Nat → Store Double → Run Double (Signal Double × Store Double)
  | 0, _ => .unfinished
  | rounds + 1, store =>
      (test store).bind fun (holds, store) =>
        if holds then
          (body store).bind fun (signal, store) =>
            match signal with
            | .normal | .continued =>
                (advance store).bind (evalRounds test body advance rounds)
            | .broke => .done (.normal, store)
            | .returned value => .done (.returned value, store)
        else .done (.normal, store)

/-- Leave the innermost scope. -/
def leaveScope (run : Run Double (Signal Double × Store Double)) :
    Run Double (Signal Double × Store Double) :=
  run.bind fun (signal, store) => .done (signal, store.pop)

variable (rounds : Nat)

mutual

/-- A statement; each of its loops makes at most so many rounds. -/
def evalStmt : Stmt → Store Double → Run Double (Signal Double × Store Double)
  | .expression statement, store =>
      (evalExpr machine declared call statement.expression store).bind fun (_, store) =>
        .done (.normal, store)
  | .variable declaration, store =>
      (evalVariable machine declared call declaration store).bind fun store =>
        .done (.normal, store)
  | .block _ body _, store => leaveScope (evalStmts body (store.push []))
  | .conditional _ condition _ consequent _ alternative, store =>
      (evalCondition machine declared call condition store).bind fun (flag, store) =>
        if flag then leaveScope (evalStmts consequent (store.push []))
        else
          match alternative with
          | none => .done (.normal, store)
          | some statement => evalStmt statement store
  | .loop _ start condition advance _ body _, store =>
      leaveScope
        ((evalStart machine declared call start (store.push [])).bind
          (evalRounds (evalTest machine declared call condition)
            (fun store => leaveScope (evalStmts body (store.push [])))
            (evalAdvance machine declared call advance) rounds))
  | .return_ _ value _, store => evalReturn machine declared call value store
  | .break_ _, store => .done (.broke, store)
  | .continue_ _, store => .done (.continued, store)
  | .function _, _ => .stuck

/-- Statements one after the other. -/
def evalStmts : List Stmt → Store Double → Run Double (Signal Double × Store Double)
  | [], store => .done (.normal, store)
  | statement :: rest, store =>
      (evalStmt statement store).bind fun (signal, store) =>
        match signal with
        | .normal => evalStmts rest store
        | signal => .done (signal, store)

end

/-- The end of a body: a return gives its value, and the end of the statements gives the zero of the
result type. -/
def conclude (result : BasicType) (signal : Signal Double) (store : Store Double) :
    Run Double (Option (Datum Double) × Trace Double) :=
  match signal with
  | .returned value => .done (value, store.trace)
  | .normal =>
      if result == .void then .done (none, store.trace)
      else present (zeroDatum machine result) fun datum => .done (some datum, store.trace)
  | _ => .stuck

/-- The statements at top level that a function begins with, in a scope of their own.  The outermost
scope is that of the program, where no variables are. -/
def evalTopLevel (topLevel : Option (List Stmt)) (trace : Trace Double) :
    Run Double (Signal Double × Store Double) :=
  match topLevel with
  | none => .done (.normal, ⟨[[]], trace⟩)
  | some statements => evalStmts machine declared call rounds statements ⟨[[], []], trace⟩

/-- The value and the output of a function called with arguments. -/
def SourceFunction.eval (function : SourceFunction) (arguments : List (Datum Double))
    (trace : Trace Double) : Run Double (Option (Datum Double) × Trace Double) :=
  (evalTopLevel machine declared call rounds function.topLevel trace).bind fun (signal, store) =>
    match signal with
    | .normal =>
        (evalStmts machine declared call rounds function.body
          (store.push (function.params.zip arguments))).bind fun (signal, store) =>
            conclude machine function.result signal store
    | signal => conclude machine function.result signal store

end Evaluation

/-- A call of a function of a program.  The bound limits the depth of calls, and at each depth the
rounds of a loop. -/
def sourceCall (machine : Machine Double) (functions : List SourceFunction) : Nat → Call Double
  | 0, _, _, _ => .unfinished
  | bound + 1, name, arguments, trace =>
      present (functions.find? fun function => function.name == name) fun function =>
        function.eval machine (fun name => functions.any fun function => function.name == name)
          (sourceCall machine functions bound) bound arguments trace

/-- A declared function, behind the statements at top level if they belong to it. -/
def sourceFunction (topLevel : Option (List Stmt)) (declaration : FunctionDecl) : SourceFunction :=
  { name := declaration.name.name
    topLevel
    params := declaration.params.map fun param => param.name.name
    result :=
      (declaration.result.map fun type => (BasicType.ofName? type.name).getD .invalid).getD .void
    body := declaration.body }

/-- The function made for the statements at top level. -/
def topLevelFunction (name : Bytes) (statements : List Stmt) : SourceFunction :=
  { name, topLevel := some statements, params := [], result := .int, body := [] }

/-- The functions of a program.  The statements at top level belong to the program's own entry
function if there is one, and to a function made for them otherwise. -/
def sourceFunctions (options : EntryOptions) (stem : Bytes) (program : Program) :
    List SourceFunction :=
  let isEntry : FunctionDecl → Bool := fun declaration =>
    options.policy == .auto && declaration.name.name == options.entryName
  let own := program.functions.map fun declaration =>
    sourceFunction (if isEntry declaration then some program.statements else none) declaration
  if program.functions.any isEntry then own
  else topLevelFunction (synthesizedEntry stem) program.statements :: own

end ScriptCompiler.Semantics
