import ScriptCompiler.Proofs.Syntax.Acceptance
import ScriptCompiler.Proofs.Syntax.Walk

/-!
# A cursor never leaves its slice

A walk reads at indices up to the first token that ends the input and never turns back.  Each parser
of expressions, statements and declarations takes a token if it gives a value, and between two
tokens there are at most eight calls; so a walk ends within a depth that depends on the number of
tokens only (`Walk.contained_items`).
-/

namespace ScriptCompiler

namespace TokenSlice

variable {slice : TokenSlice} {start final : Stand} {rest : List Token}

/-- The tokens before the first one that ends the input. -/
def words (slice : TokenSlice) : List Token := Program.content slice.tokens

theorem find?_stop (slice : TokenSlice) :
    slice.tokens.find? (fun token => token.kind == .eof) = some slice.stop :=
  (Option.some_get slice.ended).symm

theorem kind_stop (slice : TokenSlice) : slice.stop.kind = .eof := by
  simpa using List.find?_some slice.find?_stop

theorem plain_words (slice : TokenSlice) : Parser.Plain slice.words :=
  Program.plain_content slice.tokens

/-- The first token that ends the input stands behind all words. -/
theorem exists_tokens_eq (slice : TokenSlice) :
    ∃ back, slice.tokens = slice.words ++ slice.stop :: back := by
  obtain ⟨isEnd, before, back, split, plain⟩ := List.find?_eq_some_iff_append.mp slice.find?_stop
  refine ⟨back, ?_⟩
  rw [words, Program.content, split, List.takeWhile_append_of_pos (by simpa using plain),
    List.takeWhile_cons_of_neg (by simpa using isEnd), List.append_nil]

theorem stopIndex_eq (slice : TokenSlice) : slice.stopIndex = slice.words.length := by
  rw [words, Program.content, List.takeWhile_eq_take_findIdx_not, List.length_take]
  simp only [bne, Bool.not_not]
  exact (Nat.min_eq_left List.findIdx_le_length).symm

/-- The token that a cursor looks at in front of some words: the first one, or the end of the
input. -/
def present (slice : TokenSlice) (rest : List Token) : Token := rest.head?.getD slice.stop

@[simp]
theorem present_nil (slice : TokenSlice) : slice.present [] = slice.stop := rfl

@[simp]
theorem present_cons (slice : TokenSlice) (token : Token) (rest : List Token) :
    slice.present (token :: rest) = token := rfl

/-- A cursor stands in front of the last words of a slice. -/
def Ahead (slice : TokenSlice) (start : Stand) (rest : List Token) : Prop :=
  ∃ before, slice.words = before ++ rest ∧ start.index = before.length

theorem ahead_first (slice : TokenSlice) : slice.Ahead .first slice.words := ⟨[], rfl, rfl⟩

theorem exists_ahead (inside : start.index ≤ slice.stopIndex) : ∃ rest, slice.Ahead start rest := by
  rw [stopIndex_eq] at inside
  exact ⟨slice.words.drop start.index, slice.words.take start.index,
    (List.take_append_drop ..).symm, (List.length_take_of_le inside).symm⟩

namespace Ahead

theorem index_add (ahead : slice.Ahead start rest) :
    start.index + rest.length = slice.stopIndex := by
  obtain ⟨before, split, isIndex⟩ := ahead
  rw [stopIndex_eq, split, List.length_append, isIndex]

theorem getElem? (ahead : slice.Ahead start rest) :
    slice.tokens[start.index]? = some (slice.present rest) := by
  obtain ⟨before, split, isIndex⟩ := ahead
  obtain ⟨back, whole⟩ := slice.exists_tokens_eq
  rw [whole, split, isIndex, List.append_assoc, List.getElem?_append_right (Nat.le_refl _),
    Nat.sub_self]
  cases rest <;> rfl

theorem kind {token : Token} (ahead : slice.Ahead start (token :: rest)) : token.kind ≠ .eof := by
  obtain ⟨before, split, _⟩ := ahead
  exact slice.plain_words token (split ▸ List.mem_append_right _ List.mem_cons_self)

theorem looked (ahead : slice.Ahead start rest) : slice.Ahead start.looked rest := ahead

theorem moved {token : Token} (ahead : slice.Ahead start (token :: rest)) :
    slice.Ahead start.moved rest := by
  obtain ⟨before, split, isIndex⟩ := ahead
  exact ⟨before ++ [token], by simp [split], by simp [Stand.moved, isIndex]⟩

end Ahead

end TokenSlice

/-- A cursor has gone on from one stand to another: the accesses on the way lie between the two, and
none lies before an earlier one. -/
def Stand.Leads (start final : Stand) : Prop :=
  ∃ reads, final.reads = reads ++ start.reads ∧
    (final.index :: (reads ++ [start.index])).Pairwise (· ≥ ·)

namespace Stand.Leads

variable {start middle final : Stand}

theorem refl (stand : Stand) : stand.Leads stand := ⟨[], rfl, by simp⟩

theorem looked (stand : Stand) : stand.Leads stand.looked :=
  ⟨[stand.index], rfl, by simp [Stand.looked]⟩

theorem moved (stand : Stand) : stand.Leads stand.moved := ⟨[], rfl, by simp [Stand.moved]⟩

theorem trans (first : start.Leads middle) (second : middle.Leads final) : start.Leads final := by
  obtain ⟨earlier, isEarlier, fromStart⟩ := first
  obtain ⟨later, isLater, fromMiddle⟩ := second
  refine ⟨later ++ earlier, by rw [isLater, isEarlier, List.append_assoc], ?_⟩
  rw [← List.cons_append, List.pairwise_append] at fromMiddle
  rw [List.append_assoc, ← List.cons_append, List.pairwise_append]
  refine ⟨fromMiddle.1, fromStart.tail, fun after isAfter before isBefore => ?_⟩
  have reached := fromMiddle.2.2 after isAfter middle.index (List.mem_singleton_self _)
  exact Nat.le_trans (List.rel_of_pairwise_cons fromStart isBefore) reached

end Stand.Leads

namespace Walk

variable {α β : Type} {slice : TokenSlice} {start middle : Stand}

theorem current_run {rest : List Token} (ahead : slice.Ahead start rest) :
    current slice start = some (.ok (slice.present rest), start.looked) := by
  rw [current, ahead.getElem?]

/-- How a walk in front of some words may end: inside of the slice, and with a value only behind a
number of words. -/
inductive Ends (slice : TokenSlice) (start : Stand) (rest : List Token) (taken : Nat) :
    Option (Except Halt α × Stand) → Prop where
  | value {value : α} {final : Stand} {later : List Token} (leads : start.Leads final)
      (ahead : slice.Ahead final later) (fewer : later.length + taken ≤ rest.length) :
      Ends slice start rest taken (some (.ok value, final))
  | refused {fault : SyntaxFault} {token : Token} {final : Stand} {later : List Token}
      (leads : start.Leads final) (ahead : slice.Ahead final later) :
      Ends slice start rest taken (some (.error (.refused fault token), final))

/-- A way to the start of a walk is a part of the way to its end. -/
theorem Ends.behind {outcome : Option (Except Halt α × Stand)} {rest later : List Token}
    {taken more : Nat} (ends : Ends slice middle later more outcome) (leads : start.Leads middle)
    (fewer : later.length + taken ≤ rest.length + more) : Ends slice start rest taken outcome := by
  cases ends with
  | value leads' ahead shorter => exact .value (leads.trans leads') ahead (by omega)
  | refused leads' ahead => exact .refused (leads.trans leads') ahead

/-- In front of some words a walk ends inside of the slice, and with a value only behind a number of
words. -/
def Contained (slice : TokenSlice) (walk : Walk α) (taken : Nat) (rest : List Token) : Prop :=
  ∀ start, slice.Ahead start rest → Ends slice start rest taken (walk slice start)

namespace Contained

variable {walk other : Walk α} {next : α → Walk β} {taken more : Nat} {rest : List Token}

theorem pure (value : α) : Contained slice (Pure.pure value) 0 rest :=
  fun start ahead => .value (.refl start) ahead (Nat.le_refl _)

theorem failAt (token : Token) (fault : SyntaxFault) :
    Contained slice (Walk.failAt token fault : Walk α) taken rest :=
  fun start ahead => .refused (.refl start) ahead

theorem weaken (contained : Contained slice walk more rest) (fewer : taken ≤ more) :
    Contained slice walk taken rest :=
  fun start ahead => (contained start ahead).behind (.refl start) (by omega)

theorem bind_add (first : Contained slice walk taken rest)
    (second : ∀ value later, later.length + taken ≤ rest.length →
      Contained slice (next value) more later) :
    Contained slice (walk >>= next) (taken + more) rest := by
  intro start ahead
  have ends := first start ahead
  generalize run : walk slice start = outcome at ends
  cases ends with
  | @value value middle later leads there shorter =>
      rw [bind_of_ok run]
      exact (second value later shorter middle there).behind leads (by omega)
  | refused leads there =>
      rw [bind_of_error run]
      exact .refused leads there

/-- The words that the first walk takes are taken by both together. -/
theorem bind (first : Contained slice walk taken rest)
    (second : ∀ value later, later.length + taken ≤ rest.length →
      Contained slice (next value) 0 later) :
    Contained slice (walk >>= next) taken rest := first.bind_add second

/-- The words that the second walk takes are taken by both together. -/
theorem before (first : Contained slice walk 0 rest)
    (second : ∀ value later, later.length ≤ rest.length →
      Contained slice (next value) taken later) :
    Contained slice (walk >>= next) taken rest :=
  (first.bind_add second).weaken (by omega)

theorem any (contained : Contained slice walk taken rest) : Contained slice walk 0 rest :=
  contained.weaken (Nat.zero_le _)

theorem ite {test : Prop} [Decidable test] (first : Contained slice walk taken rest)
    (second : Contained slice other taken rest) :
    Contained slice (if test then walk else other) taken rest := by
  split
  · exact first
  · exact second

/-- A walk that looks at the token at the cursor first. -/
theorem current {next : Token → Walk α}
    (contained : Contained slice (next (slice.present rest)) taken rest) :
    Contained slice (Walk.current >>= next) taken rest := by
  intro start ahead
  rw [bind_of_ok (current_run ahead)]
  exact (contained start.looked ahead.looked).behind (.looked start) (Nat.le_refl _)

theorem looksAt {kind : TokenKind} {next : Bool → Walk α}
    (contained : Contained slice (next ((slice.present rest).kind == kind)) taken rest) :
    Contained slice (Walk.looksAt kind >>= next) taken rest := by
  rw [Walk.looksAt, bind_assoc]
  exact .current (by rwa [pure_bind])

theorem map (change : α → β) (contained : Contained slice walk taken rest) :
    Contained slice (change <$> walk) taken rest := by
  rw [map_eq_pure_bind]
  exact contained.bind fun value _ _ => pure (change value)

end Contained

section Tokens

variable {rest : List Token} {token : Token}

theorem contained_failHere (fault : SyntaxFault) (taken : Nat) :
    Contained slice (failHere fault : Walk α) taken rest := .current (.failAt _ fault)

/-- What stands in front of the end of the input is taken. -/
theorem contained_advance_cons : Contained slice advance 1 (token :: rest) := by
  intro start ahead
  have forward : Contained slice forward 1 (token :: rest) :=
    fun start ahead => .value (.moved start) ahead.moved (Nat.le_refl _)
  have contained : Contained slice advance 1 (token :: rest) := by
    refine .current (.looksAt ?_)
    rw [TokenSlice.present_cons, if_neg (mt beq_iff_eq.mp ahead.kind)]
    exact forward.bind fun _ _ _ => .pure _
  exact contained start ahead

theorem contained_advance : Contained slice advance 0 rest := by
  cases rest with
  | nil =>
      refine .current (.looksAt ?_)
      rw [TokenSlice.present_nil, if_pos (beq_iff_eq.mpr slice.kind_stop)]
      exact .pure _
  | cons token rest => exact contained_advance_cons.any

theorem contained_accept (kind : TokenKind) : Contained slice (accept kind) 0 rest :=
  .looksAt (.ite (contained_advance.bind fun _ _ _ => .pure _) (.pure _))

theorem contained_expect {kind : TokenKind} (visible : kind ≠ .eof) (what : Bytes) :
    Contained slice (expect kind what) 1 rest := by
  refine .looksAt ?_
  cases rest with
  | nil =>
      rw [TokenSlice.present_nil, slice.kind_stop, if_neg (mt beq_iff_eq.mp visible.symm)]
      exact contained_failHere _ _
  | cons token rest => exact .ite contained_advance_cons (contained_failHere _ _)

theorem contained_identifier (what : Bytes) : Contained slice (identifier what) 1 rest :=
  (contained_expect (by decide) what).bind fun _ _ _ => .pure _

theorem contained_literal (token : Token) : Contained slice (literal token) 0 rest := by
  rw [literal]
  split
  · exact .pure _
  · exact .failAt _ _

end Tokens

/-! ### Expressions -/

/-- The parsers of expressions are contained within a depth that fits the number of words. -/
structure ContainedExprs (slice : TokenSlice) (depth : Nat) : Prop where
  primary : ∀ {rest : List Token}, 8 * rest.length + 1 ≤ depth →
    Contained slice (primary depth) 1 rest
  operand : ∀ {rest : List Token} (weakest : Precedence), 8 * rest.length + 2 ≤ depth →
    Contained slice (operand depth weakest) 1 rest
  assignment : ∀ {rest : List Token} (left : Expr), 8 * rest.length + 3 ≤ depth →
    Contained slice (assignment depth left) 1 rest
  arguments : ∀ {rest : List Token}, 8 * rest.length + 3 ≤ depth →
    Contained slice (arguments depth) 1 rest
  argumentList : ∀ {rest : List Token}, 8 * rest.length + 4 ≤ depth →
    Contained slice (argumentList depth) 0 rest
  call : ∀ {rest : List Token} (left : Expr), 8 * rest.length + 5 ≤ depth →
    Contained slice (call depth left) 1 rest
  operator : ∀ {rest : List Token} (left : Expr), 8 * rest.length + 6 ≤ depth →
    Contained slice (operator depth left) 1 rest
  operators : ∀ {rest : List Token} (weakest : Precedence) (left : Expr),
    8 * rest.length + 7 ≤ depth → Contained slice (operators depth weakest left) 0 rest

namespace ContainedExprs

variable {depth : Nat} {rest : List Token}

theorem primary_succ (within : ContainedExprs slice depth)
    (enough : 8 * rest.length + 1 ≤ depth + 1) :
    Contained slice (Walk.primary (depth + 1)) 1 rest := by
  rw [Walk.primary]
  refine .current ?_
  cases rest with
  | nil =>
      simp only [TokenSlice.present_nil, slice.kind_stop]
      exact .failAt _ _
  | cons token rest =>
      rw [List.length_cons] at enough
      have literal : Contained slice (do
          let _ ← advance
          Walk.literal token) 1 (token :: rest) :=
        contained_advance_cons.bind fun _ _ _ => contained_literal token
      split
      iterate 5 exact literal
      · exact contained_advance_cons.bind fun _ _ _ => .pure _
      · refine contained_advance_cons.bind fun _ later shorter => ?_
        rw [List.length_cons] at shorter
        exact ((within.operand .assignment (by omega)).bind fun _ _ _ =>
          ((contained_expect (by decide) _).bind fun _ _ _ => .pure _).any).any
      iterate 2
        refine contained_advance_cons.bind fun _ later shorter => ?_
        rw [List.length_cons] at shorter
        exact ((within.operand .unary (by omega)).bind fun _ _ _ => .pure _).any
      · exact .failAt _ _

theorem operand_succ (within : ContainedExprs slice depth) (weakest : Precedence)
    (enough : 8 * rest.length + 2 ≤ depth + 1) :
    Contained slice (Walk.operand (depth + 1) weakest) 1 rest := by
  rw [Walk.operand]
  exact (within.primary (by omega)).bind fun left _ shorter =>
    within.operators weakest left (by omega)

theorem assignment_succ (within : ContainedExprs slice depth) (left : Expr)
    (enough : 8 * rest.length + 3 ≤ depth + 1) :
    Contained slice (Walk.assignment (depth + 1) left) 1 rest := by
  rw [Walk.assignment]
  refine .current ?_
  split
  · exact contained_advance.before fun _ _ fewer =>
      (within.operand _ (by omega)).bind fun _ _ _ => .pure _
  · exact .failAt _ _

theorem arguments_succ (within : ContainedExprs slice depth)
    (enough : 8 * rest.length + 3 ≤ depth + 1) :
    Contained slice (Walk.arguments (depth + 1)) 1 rest := by
  rw [Walk.arguments]
  refine (within.operand .assignment (by omega)).bind fun argument later shorter => ?_
  refine (contained_accept .comma).bind fun found others fewer => .ite ?_ (.pure _)
  exact ((within.arguments (by omega)).bind fun _ _ _ => .pure _).any

theorem argumentList_succ (within : ContainedExprs slice depth)
    (enough : 8 * rest.length + 4 ≤ depth + 1) :
    Contained slice (Walk.argumentList (depth + 1)) 0 rest := by
  rw [Walk.argumentList]
  exact .looksAt (.ite (.pure _) (within.arguments (by omega)).any)

theorem call_succ (within : ContainedExprs slice depth) (left : Expr)
    (enough : 8 * rest.length + 5 ≤ depth + 1) :
    Contained slice (Walk.call (depth + 1) left) 1 rest := by
  rw [Walk.call]
  refine .current ?_
  split
  · exact contained_advance.before fun _ _ fewer => (within.argumentList (by omega)).before
      fun _ _ _ => (contained_expect (by decide) _).bind fun _ _ _ => .pure _
  · exact .failAt _ _

theorem operator_succ (within : ContainedExprs slice depth) (left : Expr)
    (enough : 8 * rest.length + 6 ≤ depth + 1) :
    Contained slice (Walk.operator (depth + 1) left) 1 rest := by
  -- The sign may be no operator at all; an operand behind it takes words all the same.
  have infixed : ∀ (level : Precedence) (make : Expr → Expr), Contained slice (do
      let _ ← advance
      let right ← Walk.operand depth level
      return make right) 1 rest := fun level make =>
    contained_advance.before fun _ _ fewer =>
      (within.operand level (by omega)).bind fun _ _ _ => .pure _
  rw [Walk.operator]
  exact .current (.ite (within.assignment left (by omega)) (.ite (infixed _ _)
    (.ite (within.call left (by omega)) (infixed _ _))))

theorem operators_succ (within : ContainedExprs slice depth) (weakest : Precedence) (left : Expr)
    (enough : 8 * rest.length + 7 ≤ depth + 1) :
    Contained slice (Walk.operators (depth + 1) weakest left) 0 rest := by
  rw [Walk.operators]
  refine .current (.ite ?_ (.pure _))
  exact ((within.operator left (by omega)).bind fun larger _ shorter =>
    within.operators weakest larger (by omega)).any

end ContainedExprs

theorem containedExprs (slice : TokenSlice) (depth : Nat) : ContainedExprs slice depth := by
  induction depth with
  | zero =>
      constructor
      all_goals
        intros
        omega
  | succ depth within =>
      exact
        { primary := within.primary_succ
          operand := within.operand_succ
          assignment := within.assignment_succ
          arguments := within.arguments_succ
          argumentList := within.argumentList_succ
          call := within.call_succ
          operator := within.operator_succ
          operators := within.operators_succ }

/-! ### Statements -/

section Clauses

variable {depth : Nat} {rest : List Token}

theorem contained_expression (enough : 8 * rest.length + 2 ≤ depth) :
    Contained slice (expression depth) 1 rest :=
      (containedExprs slice depth).operand .assignment enough

theorem contained_expressionUnless (enough : 8 * rest.length + 2 ≤ depth) (kind : TokenKind) :
    Contained slice (expressionUnless depth kind) 0 rest :=
  .looksAt (.ite (.pure _) ((contained_expression enough).bind fun _ _ _ => .pure _).any)

theorem contained_expressionStatement (enough : 8 * rest.length + 2 ≤ depth) :
    Contained slice (expressionStatement depth) 1 rest :=
  (contained_expression enough).bind fun _ _ _ =>
    ((contained_expect (by decide) _).bind fun _ _ _ => .pure _).any

theorem contained_declaredType : Contained slice declaredType 0 rest := by
  have named : ∀ rest, Contained slice (do return some (← identifier "type name")) 0 rest :=
    fun rest => ((contained_identifier "type name").bind fun _ _ _ => .pure _).any
  exact (contained_accept .colon).bind fun _ rest _ =>
    .ite (named rest) (.looksAt (.ite (named rest) (.pure _)))

theorem contained_initialValue (enough : 8 * rest.length + 2 ≤ depth) :
    Contained slice (initialValue depth) 0 rest :=
  (contained_accept .assign).bind fun _ _ fewer =>
    .ite ((contained_expression (by omega)).bind fun _ _ _ => .pure _).any (.pure _)

theorem contained_variableDeclaration (enough : 8 * rest.length + 2 ≤ depth) :
    Contained slice (variableDeclaration depth) 1 rest :=
  contained_advance.before fun _ _ first => (contained_identifier _).bind fun _ _ second =>
    contained_declaredType.bind fun _ _ third =>
      (contained_initialValue (by omega)).bind fun _ _ _ =>
        .ite (contained_failHere _ _)
          ((contained_expect (by decide) _).bind fun _ _ _ => .pure _).any

theorem contained_condition (enough : 8 * rest.length + 2 ≤ depth) (keyword : Bytes) :
    Contained slice (condition depth keyword) 1 rest :=
  (contained_expect (by decide) _).bind fun _ _ shorter =>
    ((contained_expression (by omega)).bind fun _ _ _ =>
      ((contained_expect (by decide) _).bind fun _ _ _ => .pure _).any).any

theorem contained_loopStart (enough : 8 * rest.length + 2 ≤ depth) :
    Contained slice (loopStart depth) 0 rest :=
  (contained_accept .semicolon).bind fun _ _ fewer => .ite (.pure _) (.looksAt (.ite
    ((contained_variableDeclaration (by omega)).bind fun _ _ _ => .pure _).any
    ((contained_expressionStatement (by omega)).bind fun _ _ _ => .pure _).any))

theorem contained_returnStatement (enough : 8 * rest.length + 2 ≤ depth) :
    Contained slice (returnStatement depth) 1 rest :=
  contained_advance.before fun _ _ fewer => (contained_expressionUnless (by omega) _).before
    fun _ _ _ => (contained_expect (by decide) _).bind fun _ _ _ => .pure _

theorem contained_jumpStatement (inLoop : Bool) : Contained slice (jumpStatement inLoop) 1 rest :=
  .current (.ite (contained_advance.before fun _ _ _ =>
    (contained_expect (by decide) _).bind fun _ _ _ => .pure _) (.failAt _ _))

end Clauses

/-- The parsers of statements are contained within a depth that fits the number of words. -/
structure ContainedStmts (slice : TokenSlice) (depth : Nat) : Prop where
  block : ∀ {rest : List Token} (inLoop : Bool), 8 * rest.length + 3 ≤ depth →
    Contained slice (block depth inLoop) 1 rest
  conditional : ∀ {rest : List Token} (inLoop : Bool), 8 * rest.length + 3 ≤ depth →
    Contained slice (conditional depth inLoop) 1 rest
  whileLoop : ∀ {rest : List Token}, 8 * rest.length + 3 ≤ depth →
    Contained slice (whileLoop depth) 1 rest
  forLoop : ∀ {rest : List Token}, 8 * rest.length + 3 ≤ depth →
    Contained slice (forLoop depth) 1 rest
  statement : ∀ {rest : List Token} (inLoop : Bool), 8 * rest.length + 4 ≤ depth →
    Contained slice (statement depth inLoop) 1 rest
  statements : ∀ {rest : List Token} (inLoop : Bool), 8 * rest.length + 5 ≤ depth →
    Contained slice (statements depth inLoop) 0 rest

namespace ContainedStmts

variable {depth : Nat} {rest : List Token}

theorem block_succ (within : ContainedStmts slice depth) (inLoop : Bool)
    (enough : 8 * rest.length + 3 ≤ depth + 1) :
    Contained slice (Walk.block (depth + 1) inLoop) 1 rest := by
  rw [Walk.block]
  refine (contained_expect (by decide) _).bind fun _ later shorter => ?_
  exact (within.statements inLoop (by omega)).bind fun _ _ _ =>
    ((contained_expect (by decide) _).bind fun _ _ _ => .pure _).any

theorem conditional_succ (within : ContainedStmts slice depth) (inLoop : Bool)
    (enough : 8 * rest.length + 3 ≤ depth + 1) :
    Contained slice (Walk.conditional (depth + 1) inLoop) 1 rest := by
  rw [Walk.conditional]
  refine contained_advance.before fun _ _ first => (contained_condition (by omega) _).bind
    fun _ _ second => ((within.block inLoop (by omega)).bind fun _ _ third =>
      (contained_accept .elseKeyword).bind fun _ _ fourth =>
        .ite (.looksAt (.ite ?_ ?_)) (.pure _)).any
  · exact ((within.conditional inLoop (by omega)).bind fun _ _ _ => .pure _).any
  · exact ((within.block inLoop (by omega)).bind fun _ _ _ => .pure _).any

theorem whileLoop_succ (within : ContainedStmts slice depth)
    (enough : 8 * rest.length + 3 ≤ depth + 1) :
    Contained slice (Walk.whileLoop (depth + 1)) 1 rest := by
  rw [Walk.whileLoop]
  exact contained_advance.before fun _ _ first => (contained_condition (by omega) _).bind
    fun _ _ second => ((within.block true (by omega)).bind fun _ _ _ => .pure _).any

theorem forLoop_succ (within : ContainedStmts slice depth)
    (enough : 8 * rest.length + 3 ≤ depth + 1) :
    Contained slice (Walk.forLoop (depth + 1)) 1 rest := by
  rw [Walk.forLoop]
  refine contained_advance.before fun _ _ first => (contained_expect (by decide) _).bind
    fun _ _ second => (contained_loopStart (by omega)).bind fun _ _ third =>
      (contained_expressionUnless (by omega) _).bind fun _ _ fourth =>
        ((contained_expect (by decide) _).bind fun _ _ fifth =>
          (contained_expressionUnless (by omega) _).bind fun _ _ sixth =>
            ((contained_expect (by decide) _).bind fun _ _ seventh => ?_).any).any
  exact ((within.block true (by omega)).bind fun _ _ _ => .pure _).any

theorem statement_succ (within : ContainedStmts slice depth) (inLoop : Bool)
    (enough : 8 * rest.length + 4 ≤ depth + 1) :
    Contained slice (Walk.statement (depth + 1) inLoop) 1 rest := by
  rw [Walk.statement]
  refine .current ?_
  split
  · exact (contained_variableDeclaration (by omega)).bind fun _ _ _ => .pure _
  · exact within.conditional inLoop (by omega)
  · exact within.whileLoop (by omega)
  · exact within.forLoop (by omega)
  · exact contained_returnStatement (by omega)
  · exact contained_jumpStatement inLoop
  · exact contained_jumpStatement inLoop
  · exact (within.block inLoop (by omega)).bind fun _ _ _ => .pure _
  · exact contained_failHere _ _
  · exact (contained_expressionStatement (by omega)).bind fun _ _ _ => .pure _

theorem statements_succ (within : ContainedStmts slice depth) (inLoop : Bool)
    (enough : 8 * rest.length + 5 ≤ depth + 1) :
    Contained slice (Walk.statements (depth + 1) inLoop) 0 rest := by
  rw [Walk.statements]
  refine .looksAt (.ite (.pure _) (.looksAt (.ite (.pure _) ?_)))
  refine ((within.statement inLoop (by omega)).bind fun _ _ shorter => ?_).any
  exact (within.statements inLoop (by omega)).bind fun _ _ _ => .pure _

end ContainedStmts

theorem containedStmts (slice : TokenSlice) (depth : Nat) : ContainedStmts slice depth := by
  induction depth with
  | zero =>
      constructor
      all_goals
        intros
        omega
  | succ depth within =>
      exact
        { block := within.block_succ
          conditional := within.conditional_succ
          whileLoop := within.whileLoop_succ
          forLoop := within.forLoop_succ
          statement := within.statement_succ
          statements := within.statements_succ }

/-! ### Items -/

section Items

variable {depth : Nat} {rest : List Token}

theorem contained_param : Contained slice param 1 rest :=
  (contained_identifier _).bind fun _ _ _ => (contained_accept .colon).bind fun _ _ _ =>
    ((contained_identifier _).bind fun _ _ _ => .pure _).any

theorem contained_someParams (enough : 8 * rest.length + 1 ≤ depth) :
    Contained slice (someParams depth) 1 rest := by
  induction depth generalizing rest with
  | zero => omega
  | succ depth ih =>
      rw [someParams]
      refine contained_param.bind fun _ _ shorter => (contained_accept .comma).bind fun _ _ fewer =>
        .ite ?_ (.pure _)
      exact ((ih (by omega)).bind fun _ _ _ => .pure _).any

theorem contained_params (enough : 8 * rest.length + 1 ≤ depth) :
    Contained slice (params depth) 0 rest :=
  .looksAt (.ite (.pure _) (contained_someParams enough).any)

theorem contained_resultType : Contained slice resultType 0 rest :=
  .looksAt (.ite ((contained_identifier _).map some).any (.pure _))

theorem contained_functionDeclaration (enough : 8 * rest.length + 1 ≤ depth) :
    Contained slice (functionDeclaration depth) 1 rest := by
  refine contained_advance.before fun _ _ first => (contained_identifier _).bind fun _ _ second =>
    ((contained_expect (by decide) _).bind fun _ _ third =>
      (contained_params (by omega)).bind fun _ _ fourth =>
        ((contained_expect (by decide) _).bind fun _ _ fifth =>
          contained_resultType.bind fun _ _ sixth =>
            .looksAt (.ite ?_ (contained_failHere _ _))).any).any
  exact (((containedStmts slice depth).block false (by omega)).bind fun _ _ _ => .pure _).any

theorem contained_item (enough : 8 * rest.length + 4 ≤ depth) :
    Contained slice (item depth) 1 rest :=
  .looksAt (.ite ((contained_functionDeclaration (by omega)).map _)
    (((containedStmts slice depth).statement false enough).map _))

theorem contained_items (enough : 8 * rest.length + 5 ≤ depth) :
    Contained slice (items depth) 0 rest := by
  induction depth generalizing rest with
  | zero => omega
  | succ depth ih =>
      rw [items]
      refine .looksAt (.ite (.pure _) ?_)
      exact ((contained_item (by omega)).bind fun _ _ shorter =>
        (ih (by omega)).bind fun _ _ _ => .pure _).any

theorem contained_program (enough : 8 * rest.length + 5 ≤ depth) (origin : Origin) :
    Contained slice (program origin depth) 0 rest :=
  (contained_items enough).bind fun _ _ _ => .current (.pure _)

end Items

end Walk

end ScriptCompiler
