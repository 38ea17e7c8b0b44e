import ScriptCompiler.Proofs.Syntax.Written
import ScriptCompiler.Syntax.Parser

/-!
# Trees that are read

A parser yields only results of some kind if it does so on all tokens of some kind; such facts are
put together like the parsers themselves.  So every program that is read from tokens can be written,
and the names of its functions are tokens that were read.
-/

namespace ScriptCompiler

namespace Parser

variable {α β : Type} {usual : Token → Prop}

/-- On tokens of some kind, a parser yields only results of some kind and leaves tokens of that
kind. -/
def Yields (usual : Token → Prop) (parser : Parser α) (good : α → Prop) : Prop :=
  ∀ tokens value rest, (∀ token ∈ tokens, usual token) → parser tokens = .ok (value, rest) →
    good value ∧ ∀ token ∈ rest, usual token

namespace Yields

variable {good : α → Prop} {fine : β → Prop}

theorem pure {value : α} (holds : good value) :
    Yields usual (Pure.pure value : Parser α) good := by
  intro tokens result rest usually run
  cases run
  exact ⟨holds, usually⟩

theorem bind {parser : Parser α} {next : α → Parser β} (first : Yields usual parser good)
    (second : ∀ value, good value → Yields usual (next value) fine) :
    Yields usual (parser >>= next) fine := by
  intro tokens result rest usually run
  simp only [Bind.bind, StateT.bind, Except.bind] at run
  split at run
  · cases run
  · rename_i outcome parsed
    obtain ⟨holds, later⟩ := first tokens outcome.1 outcome.2 usually parsed
    exact second outcome.1 holds outcome.2 result rest later run

theorem map {parser : Parser α} {change : α → β} (first : Yields usual parser good)
    (second : ∀ value, good value → fine (change value)) :
    Yields usual (change <$> parser) fine := by
  rw [map_eq_pure_bind]
  exact first.bind fun value holds => .pure (second value holds)

theorem mono {parser : Parser α} {better : α → Prop} (yields : Yields usual parser better)
    (weaker : ∀ value, better value → good value) : Yields usual parser good := by
  intro tokens value rest usually run
  obtain ⟨holds, later⟩ := yields tokens value rest usually run
  exact ⟨weaker value holds, later⟩

theorem failHere (fault : SyntaxFault) : Yields usual (failHere fault : Parser α) good :=
  fun _ _ _ _ run => nomatch run

theorem get : Yields usual (MonadState.get : Parser (List Token)) fun _ => True := by
  intro tokens value rest usually run
  cases run
  exact ⟨trivial, usually⟩

end Yields

theorem yields_peek : Yields usual peek fun _ => True := by
  intro tokens value rest usually run
  cases run
  exact ⟨trivial, usually⟩

theorem yields_take (kind : TokenKind) (what : Bytes) :
    Yields usual (take kind what) fun token => usual token ∧ token.kind = kind := by
  intro tokens value rest usually run
  cases tokens with
  | nil => cases run
  | cons token others =>
      simp only [take] at run
      split at run
      · rename_i isKind
        cases run
        exact ⟨⟨usually _ List.mem_cons_self, by simpa using isKind⟩,
          fun other later => usually other (List.mem_cons_of_mem _ later)⟩
      · cases run

theorem yields_skip (kind : TokenKind) : Yields usual (skip kind) fun _ => True := by
  intro tokens value rest usually run
  cases tokens with
  | nil =>
      cases run
      exact ⟨trivial, usually⟩
  | cons token others =>
      simp only [skip] at run
      split at run
      · cases run
        exact ⟨trivial, fun other later => usually other (List.mem_cons_of_mem _ later)⟩
      · cases run
        exact ⟨trivial, usually⟩

theorem yields_identifier (what : Bytes) :
    Yields usual (identifier what) fun name => usual name.token ∧ name.token.kind = .identifier :=
  (yields_take .identifier what).bind fun _ holds => .pure holds

/-- What a parser does behind a token that it has taken. -/
theorem yields_behind {parser : Parser α} {good : α → Prop} {token : Token} {rest : List Token}
    (usually : ∀ other ∈ token :: rest, usual other) {result : α} {last : List Token}
    (yields : Yields usual parser good) (run : parser rest = .ok (result, last)) :
    good result ∧ ∀ other ∈ last, usual other :=
  yields rest result last (fun other later => usually other (List.mem_cons_of_mem _ later)) run

theorem int32?_range {text : Bytes} {value : Int} (found : Numeral.int32? text = some value) :
    -2147483648 ≤ value ∧ value ≤ 2147483647 := by
  obtain ⟨-, inside⟩ := Option.filter_eq_some_iff.mp found
  simpa using inside

theorem literal_written {token : Token} {expression : Expr} (run : literal token = .ok expression) :
    expression.Written := by
  unfold literal at run
  split at run
  · split at run
    · rename_i value found
      cases run
      exact int32?_range found
    · cases run
  · split at run
    · cases run
      trivial
    · cases run
  · cases run
    trivial
  · cases run
    trivial

/-- What the parsers of expressions yield within a depth. -/
structure ReadsExprs (usual : Token → Prop) (depth : Nat) : Prop where
  /-- Operands can be written. -/
  operand : ∀ weakest, Yields usual (operandWithin depth weakest) Expr.Written
  /-- Operators keep what can be written so. -/
  operators : ∀ weakest left, left.Written →
    Yields usual (operatorsWithin depth weakest left) Expr.Written
  /-- Expressions without an operator can be written. -/
  primary : Yields usual (primaryWithin depth) Expr.Written
  /-- One operator keeps what can be written so. -/
  operator : ∀ left, left.Written → Yields usual (operatorWithin depth left) Expr.Written
  /-- Arguments can be written. -/
  arguments : Yields usual (argumentsWithin depth) Expr.AllWritten

namespace ReadsExprs

variable {depth : Nat} (reads : ReadsExprs usual depth)
include reads

theorem operand_succ (weakest : Precedence) :
    Yields usual (operandWithin (depth + 1) weakest) Expr.Written := by
  rw [operandWithin]
  exact reads.primary.bind fun left written => reads.operators weakest left written

theorem operators_succ (weakest : Precedence) (left : Expr) (written : left.Written) :
    Yields usual (operatorsWithin (depth + 1) weakest left) Expr.Written := by
  rw [operatorsWithin]
  refine yields_peek.bind fun next _ => ?_
  split
  · exact (reads.operator left written).bind fun larger holds =>
      reads.operators weakest larger holds
  · exact .pure written

theorem primary_succ : Yields usual (primaryWithin (depth + 1)) Expr.Written := by
  intro tokens value rest usually run
  cases tokens with
  | nil => cases run
  | cons token others =>
      simp only [primaryWithin] at run
      have later : ∀ other ∈ others, usual other := fun other member =>
        usually other (List.mem_cons_of_mem _ member)
      have closes : ∀ {expression : Expr}, (literal token).map (fun tree => (tree, others)) =
          .ok (expression, rest) → expression.Written ∧ ∀ other ∈ rest, usual other := by
        intro expression read
        cases parsed : literal token with
        | error fault =>
            rw [parsed] at read
            cases read
        | ok tree =>
            rw [parsed] at read
            cases read
            exact ⟨literal_written parsed, later⟩
      split at run
      · exact closes run
      · exact closes run
      · exact closes run
      · exact closes run
      · exact closes run
      · cases run
        exact ⟨trivial, later⟩
      · refine yields_behind usually ?_ run
        exact (reads.operand .assignment).bind fun inner written =>
          (yields_take .rightParen _).bind fun closing _ => .pure written
      · refine yields_behind usually ?_ run
        exact (reads.operand .unary).bind fun operand written => .pure written
      · refine yields_behind usually ?_ run
        exact (reads.operand .unary).bind fun operand written => .pure written
      · cases run

theorem operator_succ (left : Expr) (written : left.Written) :
    Yields usual (operatorWithin (depth + 1) left) Expr.Written := by
  intro tokens value rest usually run
  cases tokens with
  | nil =>
      cases run
      exact ⟨written, usually⟩
  | cons operator others =>
      simp only [operatorWithin] at run
      split at run
      · split at run
        · refine yields_behind usually ?_ run
          exact (reads.operand _).bind fun assigned holds => .pure holds
        · cases run
      · split at run
        · refine yields_behind usually ?_ run
          exact (reads.operand _).bind fun right holds => .pure ⟨written, holds⟩
        · split at run
          · split at run
            · refine yields_behind usually ?_ run
              refine yields_peek.bind fun next _ => ?_
              have finishes : ∀ arguments, Expr.AllWritten arguments → ∀ callee : Identifier,
                  Yields usual (do
                    let closing ← take .rightParen "')' after arguments"
                    return .call callee arguments closing : Parser Expr) Expr.Written :=
                fun arguments holds callee =>
                  (yields_take .rightParen _).bind fun closing _ => .pure holds
              have nothing : Yields usual (Pure.pure [] : Parser (List Expr)) Expr.AllWritten :=
                .pure trivial
              split
              · exact nothing.bind fun arguments holds => finishes arguments holds _
              · exact reads.arguments.bind fun arguments holds => finishes arguments holds _
            · cases run
          · refine yields_behind usually ?_ run
            exact (reads.operand _).bind fun right holds => .pure ⟨written, holds⟩

theorem arguments_succ : Yields usual (argumentsWithin (depth + 1)) Expr.AllWritten := by
  rw [argumentsWithin]
  refine (reads.operand .assignment).bind fun argument written =>
    (yields_skip .comma).bind fun more _ => ?_
  split
  · exact reads.arguments.bind fun others holds => .pure ⟨written, holds⟩
  · exact .pure ⟨written, trivial⟩

end ReadsExprs

/-- **What is read as an expression can be written.** -/
theorem readsExprs (usual : Token → Prop) (depth : Nat) : ReadsExprs usual depth := by
  induction depth with
  | zero =>
      refine ⟨fun weakest => ?_, fun weakest left _ => ?_, ?_, fun left _ => ?_, ?_⟩
      · rw [operandWithin]
        exact .failHere _
      · rw [operatorsWithin]
        exact .failHere _
      · rw [primaryWithin]
        exact .failHere _
      · rw [operatorWithin]
        exact .failHere _
      · rw [argumentsWithin]
        exact .failHere _
  | succ depth ih =>
      exact ⟨ih.operand_succ, ih.operators_succ, ih.primary_succ, ih.operator_succ,
        ih.arguments_succ⟩

theorem yields_expression : Yields usual expression Expr.Written := fun tokens =>
  (readsExprs usual (4 * tokens.length + 4)).operand .assignment tokens

theorem yields_expressionUnless (kind : TokenKind) :
    Yields usual (expressionUnless kind) fun result => ∀ value ∈ result, value.Written := by
  refine yields_peek.bind fun next _ => ?_
  split
  · exact .pure (by simp)
  · exact yields_expression.bind fun value written => .pure (by simpa using written)

theorem yields_expressionStatement :
    Yields usual expressionStatement fun statement => statement.expression.Written :=
  yields_expression.bind fun _ written =>
    (yields_take .semicolon _).bind fun _ _ => .pure written

theorem yields_declaredType : Yields usual declaredType fun _ => True := by
  refine (yields_skip .colon).bind fun colon _ => ?_
  split
  · exact (yields_identifier _).bind fun name _ => .pure trivial
  · refine yields_peek.bind fun next _ => ?_
    split
    · exact (yields_identifier _).bind fun name _ => .pure trivial
    · exact .pure trivial

theorem yields_variableDeclaration : Yields usual variableDeclaration VarDecl.Written := by
  refine (yields_take .varKeyword _).bind fun keyword _ => (yields_identifier _).bind fun name _ =>
    yields_declaredType.bind fun type _ => (yields_skip .assign).bind fun given _ => ?_
  have finishes : ∀ initial : Option Expr, (∀ value ∈ initial, value.Written) →
      Yields usual (do
        if type.isNone && initial.isNone then failHere (.typeOrValueExpected name.name)
        let semicolon ← take .semicolon "';' after variable declaration"
        return ⟨keyword.position, name, type, initial, semicolon⟩ : Parser VarDecl)
        VarDecl.Written := by
    intro initial written
    split
    · have never : Yields usual (failHere (.typeOrValueExpected name.name) : Parser PUnit)
          fun _ => False := .failHere _
      exact never.bind fun _ impossible => impossible.elim
    · exact (yields_take .semicolon _).bind fun semicolon _ => .pure written
  have some_ : Yields usual (some <$> expression) fun initial => ∀ value ∈ initial, value.Written :=
    yields_expression.map (by simp)
  have none_ : Yields usual (Pure.pure none : Parser (Option Expr))
      fun initial => ∀ value ∈ initial, value.Written := .pure (by simp)
  split
  · exact some_.bind finishes
  · exact none_.bind finishes

theorem yields_condition (keyword : Bytes) : Yields usual (condition keyword) Expr.Written :=
  (yields_take .leftParen _).bind fun _ _ => yields_expression.bind fun _ written =>
    (yields_take .rightParen _).bind fun _ _ => .pure written

theorem yields_loopStart :
    Yields usual loopStart fun start => ∀ first ∈ start, first.Written := by
  refine (yields_skip .semicolon).bind fun empty _ => ?_
  split
  · exact .pure (by simp)
  · refine yields_peek.bind fun next _ => ?_
    split
    · exact yields_variableDeclaration.bind fun declaration written => .pure (by
        rintro _ ⟨⟩
        exact written)
    · exact yields_expressionStatement.bind fun statement written => .pure (by
        rintro _ ⟨⟩
        exact written)

theorem yields_returnStatement : Yields usual returnStatement Stmt.Written :=
  (yields_take .returnKeyword _).bind fun _ _ => (yields_expressionUnless .semicolon).bind
    fun _ written => (yields_take .semicolon _).bind fun _ _ => .pure written

theorem yields_jumpStatement (inLoop : Bool) :
    Yields usual (jumpStatement inLoop) Stmt.Written := by
  intro tokens value rest usually run
  cases tokens with
  | nil => cases run
  | cons keyword others =>
      simp only [jumpStatement] at run
      split at run
      · refine yields_behind usually ?_ run
        refine (yields_take .semicolon _).bind fun semicolon _ => .pure ?_
        split <;> trivial
      · cases run

/-- What the parsers of statements yield within a depth. -/
structure ReadsStmts (usual : Token → Prop) (depth : Nat) : Prop where
  /-- A statement can be written. -/
  statement : ∀ inLoop, Yields usual (statementWithin depth inLoop) Stmt.Written
  /-- Statements can be written. -/
  statements : ∀ inLoop, Yields usual (statementsWithin depth inLoop) Stmt.AllWritten
  /-- The statements of a block can be written. -/
  block : ∀ inLoop, Yields usual (blockWithin depth inLoop) fun block => Stmt.AllWritten block.2.1
  /-- A conditional can be written, also behind `else`. -/
  conditional : ∀ inLoop, Yields usual (conditionalWithin depth inLoop) fun statement =>
    statement.IsAlternative ∧ statement.Written
  /-- A loop with a condition only can be written. -/
  whileLoop : Yields usual (whileWithin depth) Stmt.Written
  /-- A loop with clauses can be written. -/
  forLoop : Yields usual (forWithin depth) Stmt.Written

namespace ReadsStmts

variable {depth : Nat} (reads : ReadsStmts usual depth) (inLoop : Bool)
include reads

theorem statement_succ : Yields usual (statementWithin (depth + 1) inLoop) Stmt.Written := by
  rw [statementWithin]
  refine yields_peek.bind fun next _ => ?_
  split
  · exact yields_variableDeclaration.bind fun declaration written => .pure written
  · exact (reads.conditional inLoop).mono fun _ holds => holds.2
  · exact reads.whileLoop
  · exact reads.forLoop
  · exact yields_returnStatement
  · exact yields_jumpStatement inLoop
  · exact yields_jumpStatement inLoop
  · exact (reads.block inLoop).bind fun block written => .pure written
  · exact .failHere _
  · exact yields_expressionStatement.bind fun statement written => .pure written

theorem statements_succ : Yields usual (statementsWithin (depth + 1) inLoop) Stmt.AllWritten := by
  rw [statementsWithin]
  refine yields_peek.bind fun next _ => ?_
  split
  · exact .pure trivial
  · exact (reads.statement inLoop).bind fun first written =>
      (reads.statements inLoop).bind fun others holds => .pure ⟨written, holds⟩

theorem block_succ :
    Yields usual (blockWithin (depth + 1) inLoop) fun block => Stmt.AllWritten block.2.1 := by
  rw [blockWithin]
  exact (yields_take .leftBrace _).bind fun _ _ => (reads.statements inLoop).bind fun _ written =>
    (yields_take .rightBrace _).bind fun _ _ => .pure written

theorem conditional_succ : Yields usual (conditionalWithin (depth + 1) inLoop) fun statement =>
    statement.IsAlternative ∧ statement.Written := by
  rw [conditionalWithin]
  refine (yields_take .ifKeyword _).bind fun keyword _ =>
    (yields_condition _).bind fun test tested =>
    (reads.block inLoop).bind fun consequent written =>
      (yields_skip .elseKeyword).bind fun more _ => ?_
  split
  · refine yields_peek.bind fun next _ => ?_
    split
    · exact (reads.conditional inLoop).bind fun alternative holds =>
        .pure ⟨trivial, tested, written, holds.1, holds.2⟩
    · exact (reads.block inLoop).bind fun alternative holds =>
        .pure ⟨trivial, tested, written, trivial, holds⟩
  · exact .pure ⟨trivial, tested, written⟩

theorem while_succ : Yields usual (whileWithin (depth + 1)) Stmt.Written := by
  rw [whileWithin]
  exact (yields_take .whileKeyword _).bind fun keyword _ =>
    (yields_condition _).bind fun test tested =>
    (reads.block true).bind fun body written =>
      .pure ⟨by simp, by simpa using tested, by simp, written⟩

theorem for_succ : Yields usual (forWithin (depth + 1)) Stmt.Written := by
  rw [forWithin]
  exact (yields_take .forKeyword _).bind fun _ _ => (yields_take .leftParen _).bind fun _ _ =>
    yields_loopStart.bind fun start started => (yields_expressionUnless .semicolon).bind
      fun test tested => (yields_take .semicolon _).bind fun _ _ =>
        (yields_expressionUnless .rightParen).bind fun advance advanced =>
          (yields_take .rightParen _).bind fun _ _ => (reads.block true).bind fun body written =>
            .pure ⟨started, tested, advanced, written⟩

end ReadsStmts

/-- **What is read as a statement can be written.** -/
theorem readsStmts (usual : Token → Prop) (depth : Nat) : ReadsStmts usual depth := by
  induction depth with
  | zero =>
      refine ⟨fun inLoop => ?_, fun inLoop => ?_, fun inLoop => ?_, fun inLoop => ?_, ?_, ?_⟩
      · rw [statementWithin]
        exact .failHere _
      · rw [statementsWithin]
        exact .failHere _
      · rw [blockWithin]
        exact .failHere _
      · rw [conditionalWithin]
        exact .failHere _
      · rw [whileWithin]
        exact .failHere _
      · rw [forWithin]
        exact .failHere _
  | succ depth ih =>
      exact ⟨ih.statement_succ, ih.statements_succ, ih.block_succ, ih.conditional_succ,
        ih.while_succ,
        ih.for_succ⟩

theorem yields_param : Yields usual param fun _ => True :=
  (yields_identifier _).bind fun _ _ => (yields_skip .colon).bind fun _ _ =>
    (yields_identifier _).bind fun _ _ => .pure trivial

theorem yields_paramsWithin (count : Nat) : Yields usual (paramsWithin count) fun _ => True := by
  induction count with
  | zero => exact .failHere _
  | succ count ih =>
      rw [paramsWithin]
      refine yields_param.bind fun first _ => (yields_skip .comma).bind fun more _ => ?_
      split
      · exact ih.bind fun others _ => .pure trivial
      · exact .pure trivial

theorem yields_params : Yields usual params fun _ => True := by
  refine yields_peek.bind fun next _ => ?_
  split
  · exact .pure trivial
  · exact Yields.get.bind fun tokens _ => yields_paramsWithin _

/-- An item at top level that can be written, with the name of a function among the tokens. -/
def ReadsItem (usual : Token → Prop) : Item → Prop
  | .function declaration => Stmt.AllWritten declaration.body ∧ usual declaration.name.token ∧
      declaration.name.token.kind = .identifier
  | .statement content => content.Written

theorem yields_block : Yields usual block fun block => Stmt.AllWritten block.2.1 := fun tokens =>
  (readsStmts usual (4 * tokens.length + 4)).block false tokens

theorem yields_statement : Yields usual statement Stmt.Written := fun tokens =>
  (readsStmts usual (4 * tokens.length + 4)).statement false tokens

theorem yields_functionDeclaration :
    Yields usual functionDeclaration fun declaration =>
      ReadsItem usual (.function declaration) := by
  refine (yields_take .funcKeyword _).bind fun keyword _ =>
    (yields_identifier _).bind fun name named =>
    (yields_take .leftParen _).bind fun _ _ => yields_params.bind fun parameters _ =>
      (yields_take .rightParen _).bind fun _ _ => yields_peek.bind fun next _ => ?_
  have finishes : ∀ result : Option Identifier, True → Yields usual (do
      if (← peek) != .leftBrace then failHere .bodyExpected
      let parts ← block
      return ⟨keyword.position, name, parameters, result, parts.1, parts.2.1, parts.2.2⟩ :
        Parser FunctionDecl) fun declaration => ReadsItem usual (.function declaration) := by
    intro result _
    refine yields_peek.bind fun next _ => ?_
    split
    · have never : Yields usual (failHere .bodyExpected : Parser PUnit) fun _ => False :=
        .failHere _
      exact never.bind fun _ impossible => impossible.elim
    · exact yields_block.bind fun block written => .pure ⟨written, named⟩
  have some_ : Yields usual (some <$> identifier "result type") fun _ => True :=
    (yields_identifier _).map fun _ _ => trivial
  have none_ : Yields usual (Pure.pure none : Parser (Option Identifier)) fun _ => True :=
    .pure trivial
  split
  · exact some_.bind finishes
  · exact none_.bind finishes

theorem yields_itemsWithin (count : Nat) :
    Yields usual (itemsWithin count) fun items => ∀ item ∈ items, ReadsItem usual item := by
  induction count with
  | zero => exact .failHere _
  | succ count ih =>
      rw [itemsWithin]
      refine yields_peek.bind fun next _ => ?_
      split
      · exact .pure (by simp)
      · have finishes : ∀ item, ReadsItem usual item → Yields usual (do
            let others ← itemsWithin count
            return item :: others : Parser (List Item)) fun items =>
              ∀ item ∈ items, ReadsItem usual item := fun item holds =>
          ih.bind fun others later => .pure (by simpa using ⟨holds, later⟩)
        have function : Yields usual (Item.function <$> functionDeclaration) (ReadsItem usual) :=
          yields_functionDeclaration.map fun _ holds => holds
        have statement : Yields usual (Item.statement <$> statement) (ReadsItem usual) :=
          yields_statement.map fun _ holds => holds
        split
        · exact function.bind finishes
        · exact statement.bind finishes

end Parser

namespace Program

variable {origin : Origin} {tokens : List Token} {program : Program}

theorem allWritten_iff {statements : List Stmt} :
    Stmt.AllWritten statements ↔ ∀ statement ∈ statements, statement.Written := by
  induction statements with
  | nil => simp [Stmt.AllWritten]
  | cons first rest ih => simp [Stmt.AllWritten, ih]

/-- What is read from tokens of some kind. -/
theorem reads_of_ofTokens {usual : Token → Prop} (usually : ∀ token ∈ tokens, usual token)
    (read : ofTokens origin tokens = .ok program) :
    ∀ item ∈ program.items, Parser.ReadsItem usual item := by
  unfold ofTokens at read
  split at read
  · rename_i items rest run
    cases read
    refine (Parser.yields_itemsWithin _ _ _ _ (fun token member => ?_) run).1
    exact usually token ((List.takeWhile_sublist _).subset member)
  · cases read

/-- **Every program that is read can be written.** -/
theorem written_of_ofTokens (read : ofTokens origin tokens = .ok program) : program.Written := by
  have reads := reads_of_ofTokens (fun token _ => trivial) read
  refine ⟨allWritten_iff.mpr fun statement member => ?_, fun declaration member => ?_⟩
  · obtain ⟨item, there, isStatement⟩ := List.mem_filterMap.mp member
    cases item with
    | function declaration => cases isStatement
    | statement content =>
        cases isStatement
        exact reads _ there
  · obtain ⟨item, there, isFunction⟩ := List.mem_filterMap.mp member
    cases item with
    | function content =>
        cases isFunction
        exact (reads _ there).1
    | statement content => cases isFunction

end Program

end ScriptCompiler
