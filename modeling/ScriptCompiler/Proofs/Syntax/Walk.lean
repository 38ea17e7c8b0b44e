import ScriptCompiler.Syntax.Parser

/-!
# Parsing with a cursor

The parsers once more, over a slice of tokens that the end of the input is one of.  A cursor stands
at an index of the slice.  Each look at a token is an access at that index, which is recorded and
can lie outside of the slice; the cursor moves on by one, and stays where it is at the end of the
input.  Calls and rounds of loops are nested up to a depth, and a walk that goes deeper gives
nothing at all; so a walk ends if it gives something at all depths from one on.
-/

namespace ScriptCompiler

/-- Tokens one of which ends the input. -/
structure TokenSlice where
  /-- The tokens. -/
  tokens : List Token
  /-- One of them ends the input. -/
  ended : (tokens.find? fun token => token.kind == .eof).isSome

namespace TokenSlice

/-- The token that ends the input behind other ones. -/
def endBehind (tokens : List Token) : Token :=
  ⟨.eof, [], (tokens.getLast?.map Token.next).getD {}⟩

/-- The slice of some tokens; if the last one does not end the input, another one is put behind
it. -/
def ofTokens (tokens : List Token) : TokenSlice :=
  if ends : (tokens.getLast?.map Token.kind) = some .eof then
    ⟨tokens, by
      obtain ⟨last, isLast, isEof⟩ := Option.map_eq_some_iff.mp ends
      exact List.find?_isSome.mpr ⟨last, List.mem_of_getLast? isLast, beq_iff_eq.mpr isEof⟩⟩
  else ⟨tokens ++ [endBehind tokens], by simp [endBehind]⟩

variable (slice : TokenSlice)

/-- The first token that ends the input. -/
def stop : Token := (slice.tokens.find? fun token => token.kind == .eof).get slice.ended

/-- The index of the first token that ends the input. -/
def stopIndex : Nat := slice.tokens.findIdx fun token => token.kind == .eof

end TokenSlice

/-- Where a cursor stands, and the indices that were accessed on the way there, the last one
first. -/
structure Stand where
  /-- The index of the cursor. -/
  index : Nat
  /-- The accesses. -/
  reads : List Nat

namespace Stand

/-- The start of a slice, before any access. -/
def first : Stand := ⟨0, []⟩

/-- After an access. -/
def looked (stand : Stand) : Stand := ⟨stand.index, stand.index :: stand.reads⟩

/-- After a move by one. -/
def moved (stand : Stand) : Stand := ⟨stand.index + 1, stand.reads⟩

end Stand

/-- Why a walk ends without a value. -/
inductive Halt where
  /-- The tokens do not fit the grammar. -/
  | refused (fault : SyntaxFault) (token : Token)
  /-- There is no token at an index. -/
  | outside (index : Nat)

/-- The diagnostic of a syntax error at a token. -/
def Halt.diagnostic (origin : Origin) : Halt → Option Diagnostic
  | .refused fault token =>
      let atEnd := token.kind == .eof
      some
        { category := .invalidSyntax
          details := SyntaxError.message ⟨fault, if atEnd then none else some token⟩
          position := token.position
          origin := origin
          incomplete := atEnd }
  | .outside _ => none

/-- A walk of a cursor over a slice; it gives nothing if it goes too deep. -/
abbrev Walk := ReaderT TokenSlice (ExceptT Halt (StateT Stand Option))

namespace Walk

/-- A walk that goes deeper than is allowed. -/
def tooDeep {α : Type} : Walk α := fun _ _ => none

/-- The token at the cursor. -/
def current : Walk Token := fun slice start =>
  match slice.tokens[start.index]? with
  | some token => some (.ok token, start.looked)
  | none => some (.error (.outside start.index), start.looked)

/-- Moves the cursor on by one. -/
def forward : Walk Unit := fun _ start => some (.ok (), start.moved)

/-- A fault at a given token. -/
def failAt {α : Type} (token : Token) (fault : SyntaxFault) : Walk α :=
  fun _ start => some (.error (.refused fault token), start)

/-- A fault at the cursor. -/
def failHere {α : Type} (fault : SyntaxFault) : Walk α := do failAt (← current) fault

/-- Whether the token at the cursor is of a kind. -/
def looksAt (kind : TokenKind) : Walk Bool := do
  let token ← current
  return token.kind == kind

/-- Takes the token at the cursor, whatever it is; the cursor stays at the end of the input. -/
def advance : Walk Token := do
  let token ← current
  if ← looksAt .eof then return token
  forward
  return token

/-- Takes the token at the cursor if it is of a kind, and tells whether it did. -/
def accept (kind : TokenKind) : Walk Bool := do
  if ← looksAt kind then
    let _ ← advance
    return true
  else return false

/-- Takes the token at the cursor if it is of a kind, and fails otherwise. -/
def expect (kind : TokenKind) (what : Bytes) : Walk Token := do
  if ← looksAt kind then advance else failHere (.expected what)

/-- Takes an identifier. -/
def identifier (what : Bytes) : Walk Identifier := do
  let token ← expect .identifier what
  return ⟨token⟩

/-- Reads the value of a literal token. -/
def literal (token : Token) : Walk Expr :=
  match Parser.literal token with
  | .ok expression => pure expression
  | .error error => failAt token error.fault

mutual

/-- An expression whose operators bind at least as tightly as a level. -/
def operand : Nat → Precedence → Walk Expr
  | 0, _ => tooDeep
  | depth + 1, weakest => do
      let left ← primary depth
      operators depth weakest left

/-- The operators that follow an operand and bind at least as tightly as a level. -/
def operators : Nat → Precedence → Expr → Walk Expr
  | 0, _, _ => tooDeep
  | depth + 1, weakest, left => do
      let next ← current
      if weakest.level ≤ (Precedence.ofOperator next.kind).level then
        let larger ← operator depth left
        operators depth weakest larger
      else return left

/-- An expression without an operator on its right. -/
def primary : Nat → Walk Expr
  | 0 => tooDeep
  | depth + 1 => do
      let token ← current
      match token.kind with
      | .int | .float | .string | .trueKeyword | .falseKeyword =>
          let _ ← advance
          literal token
      | .identifier =>
          let _ ← advance
          return .variable ⟨token⟩
      | .leftParen =>
          let _ ← advance
          let inner ← operand depth .assignment
          let closing ← expect .rightParen "')' after expression"
          return .group token inner closing
      | .minus | .bang =>
          let _ ← advance
          let operand ← operand depth .unary
          return .unary token operand
      | _ => failAt token (.expected "expression")

/-- One operator after an operand, with what belongs to it. -/
def operator : Nat → Expr → Walk Expr
  | 0, _ => tooDeep
  | depth + 1, left => do
      let sign ← current
      if sign.kind.isAssignment then assignment depth left
      else if sign.kind == .bothAnd || sign.kind == .eitherOr then
        let _ ← advance
        let right ← operand depth (Precedence.ofRightOperand sign.kind)
        return .logical left sign right
      else if sign.kind == .leftParen then call depth left
      else
        let _ ← advance
        let right ← operand depth (Precedence.ofRightOperand sign.kind)
        return .binary left sign right

/-- An assignment to what stands before the cursor. -/
def assignment : Nat → Expr → Walk Expr
  | 0, _ => tooDeep
  | depth + 1, left => do
      let sign ← current
      match left with
      | .variable target =>
          let _ ← advance
          let value ← operand depth (Precedence.ofRightOperand sign.kind)
          return .assignment target sign value
      | _ => failAt sign .targetInvalid

/-- A call of what stands before the cursor. -/
def call : Nat → Expr → Walk Expr
  | 0, _ => tooDeep
  | depth + 1, left => do
      let opening ← current
      match left with
      | .variable callee =>
          let _ ← advance
          let given ← argumentList depth
          let closing ← expect .rightParen "')' after arguments"
          return .call callee given closing
      | _ => failAt opening .calleeInvalid

/-- The arguments of a call up to its closing parenthesis. -/
def argumentList : Nat → Walk (List Expr)
  | 0 => tooDeep
  | depth + 1 => do
      if ← looksAt .rightParen then return [] else arguments depth

/-- One or more arguments divided by commas. -/
def arguments : Nat → Walk (List Expr)
  | 0 => tooDeep
  | depth + 1 => do
      let argument ← operand depth .assignment
      if ← accept .comma then
        let others ← arguments depth
        return argument :: others
      else return [argument]

end

/-- An expression. -/
def expression (depth : Nat) : Walk Expr := operand depth .assignment

/-- An expression, unless the token at the cursor is of a kind. -/
def expressionUnless (depth : Nat) (kind : TokenKind) : Walk (Option Expr) := do
  if ← looksAt kind then return none
  let value ← expression depth
  return some value

/-- An expression used as a statement. -/
def expressionStatement (depth : Nat) : Walk ExprStmt := do
  let value ← expression depth
  let semicolon ← expect .semicolon "';' after expression"
  return ⟨value, semicolon⟩

/-- The type in a declaration of a variable, with or without a colon before it. -/
def declaredType : Walk (Option Identifier) := do
  if ← accept .colon then return some (← identifier "type name")
  if ← looksAt .identifier then return some (← identifier "type name")
  return none

/-- The initial value in a declaration of a variable. -/
def initialValue (depth : Nat) : Walk (Option Expr) := do
  if ← accept .assign then
    let value ← expression depth
    return some value
  else return none

/-- A declaration of a variable. -/
def variableDeclaration (depth : Nat) : Walk VarDecl := do
  let keyword ← advance
  let name ← identifier "variable name"
  let type ← declaredType
  let initial ← initialValue depth
  if type.isNone && initial.isNone then failHere (.typeOrValueExpected name.name)
  else
    let semicolon ← expect .semicolon "';' after variable declaration"
    return ⟨keyword.position, name, type, initial, semicolon⟩

/-- A condition in parentheses after a keyword. -/
def condition (depth : Nat) (keyword : Bytes) : Walk Expr := do
  let _ ← expect .leftParen ("'(' after '" ++ keyword ++ "'")
  let value ← expression depth
  let _ ← expect .rightParen "')' after condition"
  return value

/-- What a loop with clauses does before its first round. -/
def loopStart (depth : Nat) : Walk (Option LoopStart) := do
  if ← accept .semicolon then return none
  if ← looksAt .varKeyword then
    return some (.variable (← variableDeclaration depth))
  return some (.expression (← expressionStatement depth))

/-- A return statement. -/
def returnStatement (depth : Nat) : Walk Stmt := do
  let keyword ← advance
  let value ← expressionUnless depth .semicolon
  let semicolon ← expect .semicolon "';' after return"
  return .return_ keyword.position value semicolon

/-- A jump out of a loop or to its next round. -/
def jumpStatement (inLoop : Bool) : Walk Stmt := do
  let keyword ← current
  if inLoop then
    let _ ← advance
    let _ ← expect .semicolon ("';' after '" ++ keyword.lexeme ++ "'")
    return if keyword.kind == .breakKeyword then .break_ keyword else .continue_ keyword
  else failAt keyword (.outsideLoop keyword.lexeme)

mutual

/-- A statement; `inLoop` tells whether jumps may stand in it. -/
def statement : Nat → Bool → Walk Stmt
  | 0, _ => tooDeep
  | depth + 1, inLoop => do
      let next ← current
      match next.kind with
      | .varKeyword => return .variable (← variableDeclaration depth)
      | .ifKeyword => conditional depth inLoop
      | .whileKeyword => whileLoop depth
      | .forKeyword => forLoop depth
      | .returnKeyword => returnStatement depth
      | .breakKeyword | .continueKeyword => jumpStatement inLoop
      | .leftBrace =>
          let (opening, body, closing) ← block depth inLoop
          return .block opening body closing
      | .funcKeyword => failHere .nestedFunction
      | _ => return .expression (← expressionStatement depth)

/-- Statements up to a closing brace or the end of the input. -/
def statements : Nat → Bool → Walk (List Stmt)
  | 0, _ => tooDeep
  | depth + 1, inLoop => do
      if ← looksAt .rightBrace then return []
      if ← looksAt .eof then return []
      let statement ← statement depth inLoop
      let others ← statements depth inLoop
      return statement :: others

/-- A block: an opening brace, statements and a closing brace. -/
def block : Nat → Bool → Walk (Token × List Stmt × Token)
  | 0, _ => tooDeep
  | depth + 1, inLoop => do
      let opening ← expect .leftBrace "'\x7b'"
      let body ← statements depth inLoop
      let closing ← expect .rightBrace "'\x7d' after block"
      return (opening, body, closing)

/-- A conditional. -/
def conditional : Nat → Bool → Walk Stmt
  | 0, _ => tooDeep
  | depth + 1, inLoop => do
      let keyword ← advance
      let test ← condition depth "if"
      let (opening, consequent, closing) ← block depth inLoop
      if ← accept .elseKeyword then
        if ← looksAt .ifKeyword then
          let alternative ← conditional depth inLoop
          return .conditional keyword.position test opening consequent closing (some alternative)
        else
          let (first, body, last) ← block depth inLoop
          return .conditional keyword.position test opening consequent closing
            (some (.block first body last))
      else return .conditional keyword.position test opening consequent closing none

/-- A loop with a condition only. -/
def whileLoop : Nat → Walk Stmt
  | 0 => tooDeep
  | depth + 1 => do
      let keyword ← advance
      let test ← condition depth "while"
      let (opening, body, closing) ← block depth true
      return .loop keyword none (some test) none opening body closing

/-- A loop with clauses. -/
def forLoop : Nat → Walk Stmt
  | 0 => tooDeep
  | depth + 1 => do
      let keyword ← advance
      let _ ← expect .leftParen "'(' after 'for'"
      let start ← loopStart depth
      let test ← expressionUnless depth .semicolon
      let _ ← expect .semicolon "';' after loop condition"
      let advance ← expressionUnless depth .rightParen
      let _ ← expect .rightParen "')' after for clauses"
      let (opening, body, closing) ← block depth true
      return .loop keyword start test advance opening body closing

end

/-- A parameter, with or without a colon before its type. -/
def param : Walk Param := do
  let name ← identifier "parameter name"
  let _ ← accept .colon
  let type ← identifier "parameter type"
  return ⟨name, type⟩

/-- One or more parameters divided by commas. -/
def someParams : Nat → Walk (List Param)
  | 0 => tooDeep
  | depth + 1 => do
      let first ← param
      if ← accept .comma then
        let others ← someParams depth
        return first :: others
      else return [first]

/-- The parameters of a function. -/
def params (depth : Nat) : Walk (List Param) := do
  if ← looksAt .rightParen then return [] else someParams depth

/-- The result type of a function, if there is one. -/
def resultType : Walk (Option Identifier) := do
  if ← looksAt .identifier then some <$> identifier "result type" else return none

/-- A function declaration. -/
def functionDeclaration (depth : Nat) : Walk FunctionDecl := do
  let keyword ← advance
  let name ← identifier "function name"
  let _ ← expect .leftParen "'(' after function name"
  let parameters ← params depth
  let _ ← expect .rightParen "')' after parameters"
  let result ← resultType
  if ← looksAt .leftBrace then
    let (opening, body, closing) ← block depth false
    return ⟨keyword.position, name, parameters, result, opening, body, closing⟩
  else failHere .bodyExpected

/-- An item: a function declaration or a statement. -/
def item (depth : Nat) : Walk Item := do
  if ← looksAt .funcKeyword then Item.function <$> functionDeclaration depth
  else Item.statement <$> statement depth false

/-- The items of a program up to the end of the input. -/
def items : Nat → Walk (List Item)
  | 0 => tooDeep
  | depth + 1 => do
      if ← looksAt .eof then return []
      let item ← item depth
      let others ← items depth
      return item :: others

/-- A program. -/
def program (origin : Origin) (depth : Nat) : Walk Program := do
  let items ← items depth
  let last ← current
  return ⟨origin.file, items, last.position⟩

/-! ### More depth -/

section Runs

variable {α β : Type} {slice : TokenSlice} {start middle : Stand} {walk : Walk α}
    {next : α → Walk β}

theorem bind_of_ok {value : α} (run : walk slice start = some (.ok value, middle)) :
    (walk >>= next) slice start = next value slice middle := by
  simp only [Bind.bind, ReaderT.bind, ExceptT.bind, ExceptT.mk, StateT.bind, run, Option.bind,
    ExceptT.bindCont]

theorem bind_of_error {halt : Halt} (run : walk slice start = some (.error halt, middle)) :
    (walk >>= next) slice start = some (.error halt, middle) := by
  simp only [Bind.bind, ReaderT.bind, ExceptT.bind, ExceptT.mk, StateT.bind, run, Option.bind,
    ExceptT.bindCont]
  rfl

theorem bind_of_none (run : walk slice start = none) : (walk >>= next) slice start = none := by
  simp only [Bind.bind, ReaderT.bind, ExceptT.bind, ExceptT.mk, StateT.bind, run, Option.bind]

end Runs

/-- Where a walk gives something, another one gives the same. -/
def Extends {α : Type} (walk other : Walk α) : Prop :=
  ∀ slice start answer, walk slice start = some answer → other slice start = some answer

namespace Extends

variable {α β : Type} {walk other first second : Walk α}

theorem refl (walk : Walk α) : Extends walk walk := fun _ _ _ run => run

theorem tooDeep : Extends Walk.tooDeep other :=
  fun _ _ _ run => absurd (run : none = some _) (Option.some_ne_none _).symm

theorem bind {next next' : α → Walk β} (first : Extends walk other)
    (second : ∀ value, Extends (next value) (next' value)) :
    Extends (walk >>= next) (other >>= next') := by
  intro slice start answer run
  cases early : walk slice start with
  | none =>
      rw [bind_of_none early] at run
      cases run
  | some ending =>
      obtain ⟨outcome, middle⟩ := ending
      have same := first slice start _ early
      cases outcome with
      | error halt => rwa [bind_of_error same, ← bind_of_error early]
      | ok value =>
          rw [bind_of_ok early] at run
          rw [bind_of_ok same]
          exact second value slice middle answer run

/-- What stands behind a walk that does not depend on the depth. -/
theorem after {next next' : α → Walk β} (second : ∀ value, Extends (next value) (next' value)) :
    Extends (walk >>= next) (walk >>= next') := (refl walk).bind second

/-- What stands in front of a walk that does not depend on the depth. -/
theorem before {next : α → Walk β} (first : Extends walk other) :
    Extends (walk >>= next) (other >>= next) := first.bind fun _ => refl _

theorem map (change : α → β) (more : Extends walk other) :
    Extends (change <$> walk) (change <$> other) := by
  rw [map_eq_pure_bind, map_eq_pure_bind]
  exact more.before

theorem ite {test : Prop} [Decidable test] (positive : Extends walk other)
    (negative : Extends first second) :
    Extends (if test then walk else first) (if test then other else second) := by
  split
  · exact positive
  · exact negative

end Extends

/-- One more call does not change what the parsers of expressions give. -/
structure DeeperExprs (depth : Nat) : Prop where
  operand : ∀ weakest, Extends (operand depth weakest) (operand (depth + 1) weakest)
  operators : ∀ weakest left,
    Extends (operators depth weakest left) (operators (depth + 1) weakest left)
  primary : Extends (primary depth) (primary (depth + 1))
  operator : ∀ left, Extends (operator depth left) (operator (depth + 1) left)
  assignment : ∀ left, Extends (assignment depth left) (assignment (depth + 1) left)
  call : ∀ left, Extends (call depth left) (call (depth + 1) left)
  argumentList : Extends (argumentList depth) (argumentList (depth + 1))
  arguments : Extends (arguments depth) (arguments (depth + 1))

namespace DeeperExprs

variable {depth : Nat}

theorem operand_succ (within : DeeperExprs depth) (weakest : Precedence) :
    Extends (Walk.operand (depth + 1) weakest) (Walk.operand (depth + 2) weakest) := by
  rw [Walk.operand, Walk.operand]
  exact within.primary.bind fun left => within.operators weakest left

theorem operators_succ (within : DeeperExprs depth) (weakest : Precedence) (left : Expr) :
    Extends (Walk.operators (depth + 1) weakest left)
      (Walk.operators (depth + 2) weakest left) := by
  rw [Walk.operators, Walk.operators]
  exact .after fun next =>
    .ite ((within.operator left).bind fun larger => within.operators weakest larger) (.refl _)

theorem primary_succ (within : DeeperExprs depth) :
    Extends (Walk.primary (depth + 1)) (Walk.primary (depth + 2)) := by
  rw [Walk.primary, Walk.primary]
  refine .after fun token => ?_
  split
  iterate 6 exact .refl _
  iterate 3 exact .after fun _ => (within.operand _).before
  · exact .refl _

theorem operator_succ (within : DeeperExprs depth) (left : Expr) :
    Extends (Walk.operator (depth + 1) left) (Walk.operator (depth + 2) left) := by
  rw [Walk.operator, Walk.operator]
  exact .after fun _ => .ite (within.assignment left)
    (.ite (.after fun _ => (within.operand _).before) (.ite (within.call left)
      (.after fun _ => (within.operand _).before)))

theorem assignment_succ (within : DeeperExprs depth) (left : Expr) :
    Extends (Walk.assignment (depth + 1) left) (Walk.assignment (depth + 2) left) := by
  rw [Walk.assignment, Walk.assignment]
  refine .after fun _ => ?_
  split
  · exact .after fun _ => (within.operand _).before
  · exact .refl _

theorem call_succ (within : DeeperExprs depth) (left : Expr) :
    Extends (Walk.call (depth + 1) left) (Walk.call (depth + 2) left) := by
  rw [Walk.call, Walk.call]
  refine .after fun _ => ?_
  split
  · exact .after fun _ => within.argumentList.before
  · exact .refl _

theorem argumentList_succ (within : DeeperExprs depth) :
    Extends (Walk.argumentList (depth + 1)) (Walk.argumentList (depth + 2)) := by
  rw [Walk.argumentList, Walk.argumentList]
  exact .after fun _ => .ite (.refl _) within.arguments

theorem arguments_succ (within : DeeperExprs depth) :
    Extends (Walk.arguments (depth + 1)) (Walk.arguments (depth + 2)) := by
  rw [Walk.arguments, Walk.arguments]
  exact (within.operand _).bind fun _ => .after fun _ => .ite within.arguments.before (.refl _)

end DeeperExprs

theorem deeperExprs (depth : Nat) : DeeperExprs depth := by
  induction depth with
  | zero =>
      exact
        { operand := fun _ => .tooDeep
          operators := fun _ _ => .tooDeep
          primary := .tooDeep
          operator := fun _ => .tooDeep
          assignment := fun _ => .tooDeep
          call := fun _ => .tooDeep
          argumentList := .tooDeep
          arguments := .tooDeep }
  | succ depth within =>
      exact
        { operand := within.operand_succ
          operators := within.operators_succ
          primary := within.primary_succ
          operator := within.operator_succ
          assignment := within.assignment_succ
          call := within.call_succ
          argumentList := within.argumentList_succ
          arguments := within.arguments_succ }

section Clauses

variable (depth : Nat)

theorem deeper_expression : Extends (expression depth) (expression (depth + 1)) :=
  (deeperExprs depth).operand .assignment

theorem deeper_expressionUnless (kind : TokenKind) :
    Extends (expressionUnless depth kind) (expressionUnless (depth + 1) kind) :=
  .after fun _ => .ite (.refl _) (deeper_expression depth).before

theorem deeper_expressionStatement :
    Extends (expressionStatement depth) (expressionStatement (depth + 1)) :=
  (deeper_expression depth).before

theorem deeper_initialValue : Extends (initialValue depth) (initialValue (depth + 1)) :=
  .after fun _ => .ite (deeper_expression depth).before (.refl _)

theorem deeper_variableDeclaration :
    Extends (variableDeclaration depth) (variableDeclaration (depth + 1)) :=
  .after fun _ => .after fun _ => .after fun _ => (deeper_initialValue depth).before

theorem deeper_condition (keyword : Bytes) :
    Extends (condition depth keyword) (condition (depth + 1) keyword) :=
  .after fun _ => (deeper_expression depth).before

theorem deeper_loopStart : Extends (loopStart depth) (loopStart (depth + 1)) :=
  .after fun _ => .ite (.refl _) (.after fun _ =>
    .ite (deeper_variableDeclaration depth).before (deeper_expressionStatement depth).before)

theorem deeper_returnStatement : Extends (returnStatement depth) (returnStatement (depth + 1)) :=
  .after fun _ => (deeper_expressionUnless depth .semicolon).before

end Clauses

/-- One more call does not change what the parsers of statements give. -/
structure DeeperStmts (depth : Nat) : Prop where
  statement : ∀ inLoop, Extends (statement depth inLoop) (statement (depth + 1) inLoop)
  statements : ∀ inLoop, Extends (statements depth inLoop) (statements (depth + 1) inLoop)
  block : ∀ inLoop, Extends (block depth inLoop) (block (depth + 1) inLoop)
  conditional : ∀ inLoop, Extends (conditional depth inLoop) (conditional (depth + 1) inLoop)
  whileLoop : Extends (whileLoop depth) (whileLoop (depth + 1))
  forLoop : Extends (forLoop depth) (forLoop (depth + 1))

namespace DeeperStmts

variable {depth : Nat}

theorem statement_succ (within : DeeperStmts depth) (inLoop : Bool) :
    Extends (Walk.statement (depth + 1) inLoop) (Walk.statement (depth + 2) inLoop) := by
  rw [Walk.statement, Walk.statement]
  refine .after fun _ => ?_
  split
  · exact (deeper_variableDeclaration depth).before
  · exact within.conditional inLoop
  · exact within.whileLoop
  · exact within.forLoop
  · exact deeper_returnStatement depth
  · exact .refl _
  · exact .refl _
  · exact (within.block inLoop).before
  · exact .refl _
  · exact (deeper_expressionStatement depth).before

theorem statements_succ (within : DeeperStmts depth) (inLoop : Bool) :
    Extends (Walk.statements (depth + 1) inLoop) (Walk.statements (depth + 2) inLoop) := by
  rw [Walk.statements, Walk.statements]
  exact .after fun _ => .ite (.refl _) (.after fun _ => .ite (.refl _)
    ((within.statement inLoop).bind fun _ => (within.statements inLoop).before))

theorem block_succ (within : DeeperStmts depth) (inLoop : Bool) :
    Extends (Walk.block (depth + 1) inLoop) (Walk.block (depth + 2) inLoop) := by
  rw [Walk.block, Walk.block]
  exact .after fun _ => (within.statements inLoop).before

theorem conditional_succ (within : DeeperStmts depth) (inLoop : Bool) :
    Extends (Walk.conditional (depth + 1) inLoop) (Walk.conditional (depth + 2) inLoop) := by
  rw [Walk.conditional, Walk.conditional]
  exact .after fun _ => (deeper_condition depth _).bind fun _ => (within.block inLoop).bind fun _ =>
    .after fun _ => .ite (.after fun _ =>
      .ite (within.conditional inLoop).before (within.block inLoop).before) (.refl _)

theorem whileLoop_succ (within : DeeperStmts depth) :
    Extends (Walk.whileLoop (depth + 1)) (Walk.whileLoop (depth + 2)) := by
  rw [Walk.whileLoop, Walk.whileLoop]
  exact .after fun _ => (deeper_condition depth _).bind fun _ => (within.block true).before

theorem forLoop_succ (within : DeeperStmts depth) :
    Extends (Walk.forLoop (depth + 1)) (Walk.forLoop (depth + 2)) := by
  rw [Walk.forLoop, Walk.forLoop]
  exact .after fun _ => .after fun _ => (deeper_loopStart depth).bind fun _ =>
    (deeper_expressionUnless depth _).bind fun _ => .after fun _ =>
      (deeper_expressionUnless depth _).bind fun _ => .after fun _ => (within.block true).before

end DeeperStmts

theorem deeperStmts (depth : Nat) : DeeperStmts depth := by
  induction depth with
  | zero =>
      exact
        { statement := fun _ => .tooDeep
          statements := fun _ => .tooDeep
          block := fun _ => .tooDeep
          conditional := fun _ => .tooDeep
          whileLoop := .tooDeep
          forLoop := .tooDeep }
  | succ depth within =>
      exact
        { statement := within.statement_succ
          statements := within.statements_succ
          block := within.block_succ
          conditional := within.conditional_succ
          whileLoop := within.whileLoop_succ
          forLoop := within.forLoop_succ }

theorem deeper_someParams (depth : Nat) : Extends (someParams depth) (someParams (depth + 1)) := by
  induction depth with
  | zero => exact .tooDeep
  | succ depth ih =>
      rw [someParams, someParams]
      exact .after fun _ => .after fun _ => .ite ih.before (.refl _)

theorem deeper_functionDeclaration (depth : Nat) :
    Extends (functionDeclaration depth) (functionDeclaration (depth + 1)) := by
  have parameters : Extends (params depth) (params (depth + 1)) :=
    .after fun _ => .ite (.refl _) (deeper_someParams depth)
  exact .after fun _ => .after fun _ => .after fun _ => parameters.bind fun _ => .after fun _ =>
    .after fun _ => .after fun _ => .ite ((deeperStmts depth).block false).before (.refl _)

theorem deeper_items (depth : Nat) : Extends (items depth) (items (depth + 1)) := by
  have single : ∀ depth, Extends (item depth) (item (depth + 1)) := fun depth =>
    .after fun _ => .ite ((deeper_functionDeclaration depth).map _)
      (((deeperStmts depth).statement false).map _)
  induction depth with
  | zero => exact .tooDeep
  | succ depth ih =>
      rw [items, items]
      exact .after fun _ => .ite (.refl _) ((single depth).bind fun _ => ih.before)

theorem deeper_program (origin : Origin) (depth : Nat) :
    Extends (program origin depth) (program origin (depth + 1)) := (deeper_items depth).before

end Walk

end ScriptCompiler
