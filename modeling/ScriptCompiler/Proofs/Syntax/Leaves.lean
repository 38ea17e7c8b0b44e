import Mathlib.Data.List.Forall2
import ScriptCompiler.Proofs.Syntax.Grammar

/-!
# The leaves of a tree

A tree laid out again, from left to right: for each token that it was made from, what the tree still
knows of it.  That may be the whole token, its kind and position, or its kind alone.  Only the
colons before types leave no trace.

The main statement is `Grammar.AreItems.lays`: the leaves of the items of a program are the tokens
of the program, colons aside, one for one and in order.
-/

namespace ScriptCompiler

/-- What a tree knows of a token. -/
inductive Leaf where
  /-- The token itself. -/
  | kept (token : Token)
  /-- The kind and the position of the token. -/
  | placed (kind : TokenKind) (position : Position)
  /-- The kind of the token. -/
  | mark (kind : TokenKind)

/-- The kind of the token that a leaf stands for. -/
def Leaf.kind : Leaf → TokenKind
  | .kept token => token.kind
  | .placed kind _ | .mark kind => kind

/-- A leaf stands for a token. -/
def Leaf.StandsFor : Leaf → Token → Prop
  | .kept same, token => same = token
  | .placed kind position, token => token.kind = kind ∧ token.position = position
  | .mark kind, token => token.kind = kind

mutual

/-- The leaves of an expression. -/
def Expr.leaves : Expr → List Leaf
  | .literal token _ => [.kept token]
  | .variable identifier => [.kept identifier.token]
  | .binary left operator right | .logical left operator right =>
      left.leaves ++ .kept operator :: right.leaves
  | .unary operator operand => .kept operator :: operand.leaves
  | .assignment target operator value => .kept target.token :: .kept operator :: value.leaves
  | .call callee arguments closing =>
      .kept callee.token :: .mark .leftParen :: (Expr.allLeaves arguments ++ [.kept closing])
  | .group opening inner closing => .kept opening :: (inner.leaves ++ [.kept closing])

/-- The leaves of expressions divided by commas. -/
def Expr.allLeaves : List Expr → List Leaf
  | [] => []
  | [expression] => expression.leaves
  | expression :: rest => expression.leaves ++ .mark .comma :: Expr.allLeaves rest

end

/-- The leaves of an optional expression. -/
def Expr.optionLeaves : Option Expr → List Leaf
  | none => []
  | some expression => expression.leaves

/-- The leaves of an expression used as a statement. -/
def ExprStmt.leaves (statement : ExprStmt) : List Leaf :=
  statement.expression.leaves ++ [.kept statement.semicolon]

/-- The leaves of an initial value. -/
def Expr.initialLeaves : Option Expr → List Leaf
  | none => []
  | some expression => .mark .assign :: expression.leaves

/-- The leaves of a declaration of a variable. -/
def VarDecl.leaves (declaration : VarDecl) : List Leaf :=
  .placed .varKeyword declaration.first :: .kept declaration.name.token ::
    (declaration.type.toList.map (fun type => .kept type.token) ++
      Expr.initialLeaves declaration.initial ++ [.kept declaration.semicolon])

/-- The leaves of what a loop with clauses does before its first round. -/
def LoopStart.leaves : Option LoopStart → List Leaf
  | none => [.mark .semicolon]
  | some (.variable declaration) => declaration.leaves
  | some (.expression statement) => statement.leaves

/-- The leaves of a loop between its keyword and its body. -/
def loopLeaves (keyword : Token) (start : Option LoopStart) (test advance : Option Expr) :
    List Leaf :=
  if keyword.kind = .whileKeyword then
    .mark .leftParen :: (Expr.optionLeaves test ++ [.mark .rightParen])
  else
    .mark .leftParen :: (LoopStart.leaves start ++ (Expr.optionLeaves test ++ .mark .semicolon ::
      (Expr.optionLeaves advance ++ [.mark .rightParen])))

mutual

/-- The leaves of a statement. -/
def Stmt.leaves : Stmt → List Leaf
  | .expression statement => statement.leaves
  | .variable declaration => declaration.leaves
  | .block opening body closing => .kept opening :: (Stmt.allLeaves body ++ [.kept closing])
  | .conditional first test opening consequent closing none =>
      .placed .ifKeyword first :: .mark .leftParen :: (test.leaves ++ .mark .rightParen ::
        .kept opening :: (Stmt.allLeaves consequent ++ [.kept closing]))
  | .conditional first test opening consequent closing (some alternative) =>
      .placed .ifKeyword first :: .mark .leftParen :: (test.leaves ++ .mark .rightParen ::
        .kept opening :: (Stmt.allLeaves consequent ++ .kept closing ::
          .mark .elseKeyword :: alternative.leaves))
  | .loop keyword start test advance opening body closing =>
      .kept keyword :: (loopLeaves keyword start test advance ++ .kept opening ::
        (Stmt.allLeaves body ++ [.kept closing]))
  | .return_ first value semicolon =>
      .placed .returnKeyword first :: (Expr.optionLeaves value ++ [.kept semicolon])
  | .break_ keyword | .continue_ keyword => [.kept keyword, .mark .semicolon]
  | .function first => [.placed .funcKeyword first]

/-- The leaves of statements one after the other. -/
def Stmt.allLeaves : List Stmt → List Leaf
  | [] => []
  | statement :: rest => statement.leaves ++ Stmt.allLeaves rest

end

/-- The leaves of parameters divided by commas. -/
def Param.allLeaves : List Param → List Leaf
  | [] => []
  | [param] => [.kept param.name.token, .kept param.type.token]
  | param :: rest =>
      .kept param.name.token :: .kept param.type.token :: .mark .comma :: Param.allLeaves rest

/-- The leaves of a function declaration. -/
def FunctionDecl.leaves (declaration : FunctionDecl) : List Leaf :=
  .placed .funcKeyword declaration.first :: .kept declaration.name.token :: .mark .leftParen ::
    (Param.allLeaves declaration.params ++ .mark .rightParen ::
      (declaration.result.toList.map (fun type => .kept type.token) ++
        .kept declaration.opening :: (Stmt.allLeaves declaration.body ++
          [.kept declaration.closing])))

/-- The leaves of an item. -/
def Item.leaves : Item → List Leaf
  | .function declaration => declaration.leaves
  | .statement content => content.leaves

/-- Leaves stand for tokens, one for one and in order, but for the colons. -/
def Leaf.Lay (leaves : List Leaf) (tokens : List Token) : Prop :=
  List.Forall₂ Leaf.StandsFor leaves (tokens.filter fun token => token.kind != .colon)

namespace Leaf.Lay

variable {leaf : Leaf} {leaves first second : List Leaf} {token : Token}
  {tokens firstTokens secondTokens : List Token}

theorem nil : Lay [] [] := List.Forall₂.nil

theorem cons (stands : leaf.StandsFor token) (visible : token.kind ≠ .colon)
    (rest : Lay leaves tokens) : Lay (leaf :: leaves) (token :: tokens) := by
  rw [Lay, List.filter_cons_of_pos (by simpa using visible)]
  exact .cons stands rest

theorem kept_cons (visible : token.kind ≠ .colon) (rest : Lay leaves tokens) :
    Lay (.kept token :: leaves) (token :: tokens) := cons rfl visible rest

theorem mark_cons {kind : TokenKind} (isKind : token.kind = kind) (visible : kind ≠ .colon)
    (rest : Lay leaves tokens) : Lay (.mark kind :: leaves) (token :: tokens) :=
  cons isKind (isKind ▸ visible) rest

theorem placed_cons {kind : TokenKind} (isKind : token.kind = kind) (visible : kind ≠ .colon)
    (rest : Lay leaves tokens) :
    Lay (.placed kind token.position :: leaves) (token :: tokens) :=
  cons ⟨isKind, rfl⟩ (isKind ▸ visible) rest

theorem kept_last (visible : token.kind ≠ .colon) : Lay [.kept token] [token] :=
  kept_cons visible nil

theorem append (left : Lay first firstTokens) (right : Lay second secondTokens) :
    Lay (first ++ second) (firstTokens ++ secondTokens) := by
  rw [Lay, List.filter_append]
  exact List.rel_append left right

/-- The kinds of leaves are the kinds of their tokens. -/
theorem map_kind (lay : Lay leaves tokens) :
    leaves.map Leaf.kind = (tokens.map Token.kind).filter fun kind => kind != .colon := by
  have kinds : ∀ {leaf : Leaf} {token : Token}, leaf.StandsFor token → leaf.kind = token.kind := by
    intro leaf token stands
    cases leaf with
    | kept same => exact congrArg Token.kind stands
    | placed kind position => exact stands.1.symm
    | mark kind => exact stands.symm
  have image : (tokens.filter fun token => token.kind != .colon).map Token.kind =
      (tokens.map Token.kind).filter fun kind => kind != .colon := by
    rw [List.filter_map]
    rfl
  rw [← image]
  exact List.forall₂_eq_eq_eq ▸
    (List.forall₂_map_left_iff.mpr (List.forall₂_map_right_iff.mpr (lay.imp fun _ _ => kinds)))

end Leaf.Lay

namespace Grammar

open Leaf (Lay)

theorem Spells.visible {token : Token} {value : Literal} (spells : Spells token value) :
    token.kind ≠ .colon := by
  cases spells <;> simp_all

theorem visible_of_arithmetic {level : Precedence} {kind : TokenKind}
    (member : kind ∈ arithmetic level) : kind ≠ .colon := by
  rintro rfl
  cases level <;> simp [arithmetic] at member

theorem visible_of_connectives {level : Precedence} {kind : TokenKind}
    (member : kind ∈ connectives level) : kind ≠ .colon := by
  rintro rfl
  cases level <;> simp [connectives] at member

theorem visible_of_isAssignment {kind : TokenKind} (assigns : kind.isAssignment = true) :
    kind ≠ .colon := by
  rintro rfl
  cases assigns

/-- A kind that is not a colon, told by what it is. -/
theorem visible_of_eq {token : Token} {kind : TokenKind} (isKind : token.kind = kind)
    (visible : kind ≠ .colon) : token.kind ≠ .colon := isKind ▸ visible

mutual

theorem IsExpr.lays {level : Precedence} {tokens : List Token} {expression : Expr} :
    IsExpr level tokens expression → Lay expression.leaves tokens
  | .assignment target operator value =>
      .kept_cons (visible_of_eq target (by decide))
        (.kept_cons (visible_of_isAssignment operator) value.lays)
  | .logical member left right =>
      left.lays.append (.kept_cons (visible_of_connectives member) right.lays)
  | .binary member left right =>
      left.lays.append (.kept_cons (visible_of_arithmetic member) right.lays)
  | .unary operator operand => by
      refine .kept_cons ?_ operand.lays
      rcases operator with minus | bang
      · exact visible_of_eq minus (by decide)
      · exact visible_of_eq bang (by decide)
  | .call callee opening closing arguments =>
      .kept_cons (visible_of_eq callee (by decide)) (.mark_cons opening (by decide)
        (arguments.lays.append (.kept_last (visible_of_eq closing (by decide)))))
  | .literal spells => .kept_last spells.visible
  | .variable name => .kept_last (visible_of_eq name (by decide))
  | .group opening closing inner =>
      .kept_cons (visible_of_eq opening (by decide))
        (inner.lays.append (.kept_last (visible_of_eq closing (by decide))))
  | .tighter inner => inner.lays

theorem AreArguments.lays {tokens : List Token} {arguments : List Expr} :
    AreArguments tokens arguments → Lay (Expr.allLeaves arguments) tokens
  | .none => .nil
  | .some arguments => arguments.lays

theorem AreSomeArguments.lays {tokens : List Token} {arguments : List Expr} :
    AreSomeArguments tokens arguments → Lay (Expr.allLeaves arguments) tokens
  | .one argument => argument.lays
  | @AreSomeArguments.more _ _ _ _ others argument comma rest => by
      have later := rest.lays
      cases others with
      | nil => cases rest
      | cons second others =>
          exact argument.lays.append (.mark_cons comma (by decide) later)

end

section Statements

variable {tokens : List Token}

theorem IsOptional.lays {expression : Option Expr} (derived : IsOptional tokens expression) :
    Lay (Expr.optionLeaves expression) tokens := by
  cases derived with
  | none => exact .nil
  | some inner => exact inner.lays

theorem IsExprStmt.lays {statement : ExprStmt} (derived : IsExprStmt tokens statement) :
    Lay statement.leaves tokens := by
  cases derived with
  | mk expression semicolon =>
      exact expression.lays.append (.kept_last (visible_of_eq semicolon (by decide)))

theorem IsType.lays {type : Identifier} (derived : IsType tokens type) :
    Lay [.kept type.token] tokens := by
  cases derived with
  | plain name => exact .kept_last (visible_of_eq name (by decide))
  | @colon colon name isColon isName =>
      rw [Lay, List.filter_cons_of_neg (by simp [isColon])]
      exact Lay.kept_last (visible_of_eq isName (by decide))

theorem IsDeclaredType.lays {type : Option Identifier} (derived : IsDeclaredType tokens type) :
    Lay (type.toList.map fun type => .kept type.token) tokens := by
  cases derived with
  | none => exact .nil
  | some type => exact type.lays

theorem IsInitial.lays {initial : Option Expr} (derived : IsInitial tokens initial) :
    Lay (Expr.initialLeaves initial) tokens := by
  cases derived with
  | none => exact .nil
  | some equals expression => exact .mark_cons equals (by decide) expression.lays

theorem IsVarDecl.lays {declaration : VarDecl} (derived : IsVarDecl tokens declaration) :
    Lay declaration.leaves tokens := by
  cases derived with
  | mk keyword name type initial _ semicolon =>
      refine .placed_cons keyword (by decide) (.kept_cons (visible_of_eq name (by decide)) ?_)
      exact (type.lays.append initial.lays).append
        (.kept_last (visible_of_eq semicolon (by decide)))

/-- In the strict grammar, the start of a loop is laid out in full. -/
theorem IsLoopStart.lays {start : Option LoopStart} :
    IsLoopStart false tokens start → Lay (LoopStart.leaves start) tokens
  | .none semicolon => .mark_cons semicolon (by decide) .nil
  | .variable declaration => declaration.lays
  | .expression statement => statement.lays

mutual

theorem IsStmt.lays {inLoop : Bool} {tokens : List Token} {statement : Stmt} :
    IsStmt false inLoop tokens statement → Lay statement.leaves tokens
  | .expression expression => expression.lays
  | .variable declaration => declaration.lays
  | .block block => block.lays
  | .conditional conditional => conditional.lays
  | .while_ keyword left test right block => by
      have whole := Lay.mark_cons left (by decide)
        (test.lays.append (.mark_cons right (by decide) block.lays))
      refine .kept_cons (visible_of_eq keyword (by decide)) ?_
      simpa only [loopLeaves, keyword, if_true, Expr.optionLeaves, List.cons_append,
        List.append_assoc, List.nil_append] using whole
  | .for_ keyword left start test middle advance right block => by
      have whole := Lay.mark_cons left (by decide) (start.lays.append (test.lays.append
        (.mark_cons middle (by decide) (advance.lays.append
          (.mark_cons right (by decide) block.lays)))))
      refine .kept_cons (visible_of_eq keyword (by decide)) ?_
      simpa only [loopLeaves, keyword, reduceCtorEq, if_false, List.cons_append, List.append_assoc,
        List.nil_append] using whole
  | .return_ keyword value semicolon =>
      .placed_cons keyword (by decide)
        (value.lays.append (.kept_last (visible_of_eq semicolon (by decide))))
  | .break_ keyword semicolon | .continue_ keyword semicolon =>
      .kept_cons (visible_of_eq keyword (by decide)) (.mark_cons semicolon (by decide) .nil)

theorem AreStmts.lays {inLoop : Bool} {tokens : List Token} {statements : List Stmt} :
    AreStmts false inLoop tokens statements → Lay (Stmt.allLeaves statements) tokens
  | .none => .nil
  | .more statement others => statement.lays.append others.lays

theorem IsBlock.lays {inLoop : Bool} {tokens : List Token} {block : Token × List Stmt × Token} :
    IsBlock false inLoop tokens block →
      Lay (.kept block.1 :: (Stmt.allLeaves block.2.1 ++ [.kept block.2.2])) tokens
  | .mk opening body closing =>
      .kept_cons (visible_of_eq opening (by decide))
        (body.lays.append (.kept_last (visible_of_eq closing (by decide))))

theorem IsConditional.lays {inLoop : Bool} {tokens : List Token} {statement : Stmt} :
    IsConditional false inLoop tokens statement → Lay statement.leaves tokens
  | @IsConditional.mk _ _ _ _ _ _ _ _ _ _ _ _ alternative keyword left test right block chosen => by
      have whole := Lay.placed_cons keyword (by decide) (.mark_cons left (by decide)
        (test.lays.append (.mark_cons right (by decide) (block.lays.append chosen.lays))))
      cases alternative with
      | none => simpa only [Stmt.leaves, List.append_nil] using whole
      | some statement =>
          simpa only [Stmt.leaves, List.cons_append, List.append_assoc, List.nil_append] using whole

theorem IsAlternative.lays {inLoop : Bool} {tokens : List Token} {alternative : Option Stmt} :
    IsAlternative false inLoop tokens alternative →
      Lay (match alternative with
        | none => []
        | some statement => .mark .elseKeyword :: statement.leaves) tokens
  | .none => .nil
  | .block keyword block => .mark_cons keyword (by decide) block.lays
  | .conditional keyword conditional => .mark_cons keyword (by decide) conditional.lays

end

theorem AreSomeParams.lays {params : List Param} (derived : AreSomeParams tokens params) :
    Lay (Param.allLeaves params) tokens := by
  induction derived with
  | one name type => exact .kept_cons (visible_of_eq name (by decide)) type.lays
  | @more _ _ _ _ _ others name type comma rest ih =>
      cases others with
      | nil => cases rest
      | cons second others =>
          exact .kept_cons (visible_of_eq name (by decide))
            (type.lays.append (.mark_cons comma (by decide) ih))

theorem AreParams.lays {params : List Param} (derived : AreParams tokens params) :
    Lay (Param.allLeaves params) tokens := by
  cases derived with
  | none => exact .nil
  | some params => exact params.lays

theorem IsResult.lays {result : Option Identifier} (derived : IsResult tokens result) :
    Lay (result.toList.map fun type => .kept type.token) tokens := by
  cases derived with
  | none => exact .nil
  | some name => exact .kept_last (visible_of_eq name (by decide))

theorem IsFunction.lays {declaration : FunctionDecl}
    (derived : IsFunction false tokens declaration) :
    Lay declaration.leaves tokens := by
  cases derived with
  | mk keyword name left params right result block =>
      refine .placed_cons keyword (by decide) (.kept_cons (visible_of_eq name (by decide))
        (.mark_cons left (by decide) (params.lays.append (.mark_cons right (by decide) ?_))))
      exact result.lays.append block.lays

/-- The leaves of a program are its tokens, but for the colons. -/
theorem AreItems.lays {items : List Item} (derived : AreItems false tokens items) :
    Lay (items.flatMap Item.leaves) tokens := by
  induction derived with
  | none => exact .nil
  | function declaration _ ih => exact declaration.lays.append ih
  | statement statement _ ih => exact statement.lays.append ih

end Statements

end Grammar

end ScriptCompiler
