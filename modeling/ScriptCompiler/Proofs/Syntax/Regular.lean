import ScriptCompiler.Proofs.Syntax.Declared
import ScriptCompiler.Proofs.Token.Tiling

/-!
# What the grammar promises of a tree

A tree may hold more than the grammar derives: a jump out of a loop where there is none, a variable
with neither a type nor an initial value, a function in the place of a statement, an operator
without a text.  The tree of a text holds none of this (`SourceFile.regular_of_parse`), so that the
stages behind the parser need not ask.
-/

namespace ScriptCompiler

/-- A literal is of the kind of a token. -/
def Literal.IsOf : Literal → TokenKind → Prop
  | .int _, kind => kind = .int
  | .float _, kind => kind = .float
  | .string _, kind => kind = .string
  | .bool _, kind => kind = .trueKeyword ∨ kind = .falseKeyword

mutual

/-- The literals of an expression are of the kinds of their tokens, and its assignments have
operators with a text. -/
def Expr.Regular : Expr → Prop
  | .literal token value => value.IsOf token.kind
  | .variable _ => True
  | .binary left _ right | .logical left _ right => left.Regular ∧ right.Regular
  | .unary _ operand => operand.Regular
  | .assignment _ operator value => operator.lexeme ≠ [] ∧ value.Regular
  | .call _ arguments _ => Expr.AllRegular arguments
  | .group _ inner _ => inner.Regular

/-- Expressions that are regular. -/
def Expr.AllRegular : List Expr → Prop
  | [] => True
  | expression :: rest => expression.Regular ∧ Expr.AllRegular rest

end

/-- A variable is declared with a type or an initial value. -/
def VarDecl.Regular (declaration : VarDecl) : Prop :=
  (declaration.type.isSome ∨ declaration.initial.isSome) ∧
    ∀ expression ∈ declaration.initial, expression.Regular

/-- A loop begins with something regular. -/
def LoopStart.Regular : LoopStart → Prop
  | .variable declaration => declaration.Regular
  | .expression statement => statement.expression.Regular

mutual

/-- Where a statement stands, in a loop or not, its jumps have a loop to act on; it declares
variables with a type or an initial value, and no functions. -/
def Stmt.Regular (inLoop : Bool) : Stmt → Prop
  | .expression statement => statement.expression.Regular
  | .variable declaration => declaration.Regular
  | .block _ body _ => Stmt.AllRegular inLoop body
  | .conditional _ condition _ consequent _ none =>
      condition.Regular ∧ Stmt.AllRegular inLoop consequent
  | .conditional _ condition _ consequent _ (some alternative) =>
      condition.Regular ∧ Stmt.AllRegular inLoop consequent ∧ alternative.Regular inLoop
  | .loop _ start condition advance _ body _ =>
      (∀ first ∈ start, first.Regular) ∧ (∀ test ∈ condition, test.Regular) ∧
        (∀ last ∈ advance, last.Regular) ∧ Stmt.AllRegular true body
  | .return_ _ value _ => ∀ result ∈ value, result.Regular
  | .break_ _ | .continue_ _ => inLoop = true
  | .function _ => False

/-- Statements that are regular. -/
def Stmt.AllRegular (inLoop : Bool) : List Stmt → Prop
  | [] => True
  | statement :: rest => statement.Regular inLoop ∧ Stmt.AllRegular inLoop rest

end

/-- The statements of a program stand in no loop. -/
structure Program.Regular (program : Program) : Prop where
  /-- Those at top level. -/
  statements : Stmt.AllRegular false program.statements
  /-- Those of its functions. -/
  bodies : ∀ declaration ∈ program.functions, Stmt.AllRegular false declaration.body

/-- Tokens that have a text. -/
def Spelt (tokens : List Token) : Prop := ∀ token ∈ tokens, token.lexeme ≠ []

theorem Spelt.mono {tokens more : List Token} (spelt : Spelt more)
    (within : ∀ token ∈ tokens, token ∈ more) : Spelt tokens :=
  fun token member => spelt token (within token member)

theorem Stmt.allRegular_iff {inLoop : Bool} {statements : List Stmt} :
    AllRegular inLoop statements ↔ ∀ statement ∈ statements, statement.Regular inLoop := by
  induction statements with
  | nil => simp [AllRegular]
  | cons first rest ih => simp [AllRegular, ih]

namespace Grammar

theorem Spells.isOf {token : Token} {value : Literal} (spells : Spells token value) :
    value.IsOf token.kind := by
  cases spells <;> simp_all [Literal.IsOf]

mutual

theorem IsExpr.regular {level : Precedence} {tokens : List Token} {expression : Expr} :
    IsExpr level tokens expression → Spelt tokens → expression.Regular
  | .assignment _ _ value, spelt =>
      ⟨spelt _ (by simp), value.regular (spelt.mono (by simp +contextual))⟩
  | .logical _ left right, spelt | .binary _ left right, spelt =>
      ⟨left.regular (spelt.mono (by simp +contextual)),
        right.regular (spelt.mono (by simp +contextual))⟩
  | .unary _ operand, spelt => operand.regular (spelt.mono (by simp +contextual))
  | .call _ _ _ arguments, spelt => arguments.regular (spelt.mono (by simp +contextual))
  | .literal spells, _ => spells.isOf
  | .variable _, _ => trivial
  | .group _ _ inner, spelt => inner.regular (spelt.mono (by simp +contextual))
  | .tighter inner, spelt => inner.regular spelt

theorem AreArguments.regular {tokens : List Token} {arguments : List Expr} :
    AreArguments tokens arguments → Spelt tokens → Expr.AllRegular arguments
  | .none, _ => trivial
  | .some arguments, spelt => arguments.regular spelt

theorem AreSomeArguments.regular {tokens : List Token} {arguments : List Expr} :
    AreSomeArguments tokens arguments → Spelt tokens → Expr.AllRegular arguments
  | .one argument, spelt => ⟨argument.regular spelt, trivial⟩
  | .more argument _ others, spelt =>
      ⟨argument.regular (spelt.mono (by simp +contextual)),
        others.regular (spelt.mono (by simp +contextual))⟩

end

variable {loose : Bool} {tokens : List Token}

theorem IsOptional.regular {expression : Option Expr} (derived : IsOptional tokens expression)
    (spelt : Spelt tokens) : ∀ part ∈ expression, part.Regular := by
  cases derived with
  | none => simp
  | some inner => simpa using inner.regular spelt

theorem IsExprStmt.regular {statement : ExprStmt} (derived : IsExprStmt tokens statement)
    (spelt : Spelt tokens) : statement.expression.Regular := by
  cases derived with
  | mk expression _ => exact expression.regular (spelt.mono (by simp +contextual))

theorem IsVarDecl.regular {declaration : VarDecl} (derived : IsVarDecl tokens declaration)
    (spelt : Spelt tokens) : declaration.Regular := by
  cases derived with
  | mk _ _ _ initial given _ =>
      refine ⟨given, ?_⟩
      cases initial with
      | none => simp
      | some _ expression => simpa using expression.regular (spelt.mono (by simp +contextual))

theorem IsLoopStart.regular {start : Option LoopStart} :
    IsLoopStart loose tokens start → Spelt tokens → ∀ first ∈ start, first.Regular
  | .none _, _ | .omitted _, _ => by simp
  | .variable declaration, spelt => by
      rintro _ ⟨⟩
      exact declaration.regular spelt
  | .expression statement, spelt => by
      rintro _ ⟨⟩
      exact statement.regular spelt

mutual

theorem IsStmt.regular {inLoop : Bool} {tokens : List Token} {statement : Stmt} :
    IsStmt loose inLoop tokens statement → Spelt tokens → statement.Regular inLoop
  | .expression expression, spelt => expression.regular spelt
  | .variable declaration, spelt => declaration.regular spelt
  | .block block, spelt => block.regular spelt
  | .conditional conditional, spelt => conditional.regular spelt
  | .while_ _ _ test _ block, spelt =>
      ⟨by simp, by simpa using test.regular (spelt.mono (by simp +contextual)), by simp,
        block.regular (spelt.mono (by simp +contextual))⟩
  | .for_ _ _ start test _ advance _ block, spelt =>
      ⟨start.regular (spelt.mono (by simp +contextual)),
        test.regular (spelt.mono (by simp +contextual)),
        advance.regular (spelt.mono (by simp +contextual)),
          block.regular (spelt.mono (by simp +contextual))⟩
  | .return_ _ value _, spelt => value.regular (spelt.mono (by simp +contextual))
  | .break_ _ _, _ | .continue_ _ _, _ => rfl

theorem AreStmts.regular {inLoop : Bool} {tokens : List Token} {statements : List Stmt} :
    AreStmts loose inLoop tokens statements → Spelt tokens → Stmt.AllRegular inLoop statements
  | .none, _ => trivial
  | .more statement others, spelt =>
      ⟨statement.regular (spelt.mono (by simp +contextual)),
        others.regular (spelt.mono (by simp +contextual))⟩

theorem IsBlock.regular {inLoop : Bool} {tokens : List Token} {block : Token × List Stmt × Token} :
    IsBlock loose inLoop tokens block → Spelt tokens → Stmt.AllRegular inLoop block.2.1
  | .mk _ body _, spelt => body.regular (spelt.mono (by simp +contextual))

theorem IsConditional.regular {inLoop : Bool} {tokens : List Token} {statement : Stmt} :
    IsConditional loose inLoop tokens statement → Spelt tokens → statement.Regular inLoop
  | @IsConditional.mk _ _ _ _ _ _ _ _ _ _ _ _ alternative _ _ test _ block chosen, spelt => by
      have tested := test.regular (spelt.mono (by simp +contextual))
      have body := block.regular (spelt.mono (by simp +contextual))
      have other := chosen.regular (spelt.mono (by simp +contextual))
      cases alternative with
      | none => exact ⟨tested, body⟩
      | some statement => exact ⟨tested, body, other statement rfl⟩

theorem IsAlternative.regular {inLoop : Bool} {tokens : List Token} {alternative : Option Stmt} :
    IsAlternative loose inLoop tokens alternative → Spelt tokens →
      ∀ statement ∈ alternative, statement.Regular inLoop
  | .none, _ => by simp
  | .block _ block, spelt => by
      rintro _ ⟨⟩
      exact block.regular (spelt.mono (by simp +contextual))
  | .conditional _ conditional, spelt => by
      rintro _ ⟨⟩
      exact conditional.regular (spelt.mono (by simp +contextual))

end

/-- The statements of an item stand in no loop. -/
def RegularItem : Item → Prop
  | .function declaration => Stmt.AllRegular false declaration.body
  | .statement statement => statement.Regular false

theorem AreItems.regular {items : List Item} (derived : AreItems loose tokens items)
    (spelt : Spelt tokens) : ∀ item ∈ items, RegularItem item := by
  induction derived with
  | none => simp
  | function declaration _ ih =>
      refine List.forall_mem_cons.mpr ⟨?_, ih (spelt.mono (by simp +contextual))⟩
      cases declaration with
      | mk _ _ _ _ _ _ block => exact block.regular (spelt.mono (by simp +contextual))
  | statement statement _ ih =>
      exact List.forall_mem_cons.mpr
        ⟨statement.regular (spelt.mono (by simp +contextual)),
          ih (spelt.mono (by simp +contextual))⟩

end Grammar

theorem Tiles.spelt {file text front : Bytes} {tokens : List Token}
    (tiles : Tiles file text front tokens) : Spelt tokens := by
  induction tiles with
  | nil => exact fun _ member => nomatch member
  | token _ _ _ _ nonempty _ _ ih =>
      intro token member
      rcases List.mem_append.mp member with earlier | last
      · exact ih token earlier
      · exact List.mem_singleton.mp last ▸ nonempty

/-- All tokens of a text but the last one have a text. -/
theorem SourceFile.tokens_spelt {file : SourceFile} {tokens : List Token}
    (scanned : file.tokens = .ok tokens) : Spelt (Program.content tokens) := by
  have tiled : ScanTarget.Tiled ⟨file.name, file.origin⟩ file.text (file.tokens.map ([] ++ ·)) :=
    ScanTarget.tokensWithin_tiled rfl (.start file.text) (Nat.lt_succ_self _) .nil
  rw [scanned] at tiled
  obtain ⟨_, _, words, -, -, tiles, same, -⟩ := tiled
  intro token member
  have within := (List.takeWhile_sublist _).subset member
  rw [show tokens = _ from same, List.mem_append, List.mem_singleton] at within
  rcases within with word | rfl
  · exact tiles.spelt token word
  · exact absurd rfl (Program.plain_content tokens _ member)

/-- **The tree of a text is regular.** -/
theorem SourceFile.regular_of_parse {file : SourceFile} {tokens : List Token} {program : Program}
    (parsed : file.parse = .ok (tokens, program)) : program.Regular := by
  obtain ⟨scanned, read⟩ := ofTokens_of_parse parsed
  have regular := (Program.derived_of_ofTokens read).regular (tokens_spelt scanned)
  refine ⟨Stmt.allRegular_iff.mpr fun statement member => ?_, fun declaration member => ?_⟩
  · obtain ⟨item, there, isStatement⟩ := List.mem_filterMap.mp member
    cases item with
    | function declaration => cases isStatement
    | statement content =>
        cases isStatement
        exact regular _ there
  · obtain ⟨item, there, isFunction⟩ := List.mem_filterMap.mp member
    cases item with
    | function content =>
        cases isFunction
        exact regular _ there
    | statement content => cases isFunction

end ScriptCompiler
