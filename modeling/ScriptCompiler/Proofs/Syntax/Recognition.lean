import ScriptCompiler.Proofs.Syntax.Agreement

/-!
# What the grammar derives is read

The parsers take the tokens of every derivation and return its tree, as long as what stands behind
the tokens does not belong to them as well: no operator that binds as tightly, and no `else` behind
a conditional.  For expressions the induction is on the derivation, and it passes the remaining work
on: an operand in front of operators is read as the operators behind its tree are (`IsExpr.reads`).
-/

namespace ScriptCompiler.Parser

open Grammar

variable {α β : Type}

/-- From some depth on, a parser reads a value. -/
def Reads (parser : Nat → Parser α) (tokens : List Token) (value : α) (rest : List Token) : Prop :=
  ∃ enough, ∀ depth, enough ≤ depth → parser depth tokens = .ok (value, rest)

namespace Reads

variable {parser : Nat → Parser α} {tokens rest : List Token} {value : α}

theorem of_eq {single : Parser α} (run : single tokens = .ok (value, rest)) :
    Reads (fun _ => single) tokens value rest := ⟨0, fun _ _ => run⟩

/-- What two parsers read is read from a common depth on. -/
theorem both {other : Nat → Parser β} {result : β} {others last : List Token}
    (first : Reads parser tokens value rest) (second : Reads other others result last) :
    ∃ enough, ∀ depth, enough ≤ depth →
      parser depth tokens = .ok (value, rest) ∧ other depth others = .ok (result, last) := by
  obtain ⟨enough, firstRun⟩ := first
  obtain ⟨enough', secondRun⟩ := second
  refine ⟨max enough enough', fun depth deep => ?_⟩
  have bounds := Nat.max_le.mp deep
  exact ⟨firstRun depth bounds.1, secondRun depth bounds.2⟩

theorem bind {next : Nat → α → Parser β} {result : β} {last : List Token}
    (first : Reads parser tokens value rest) (second : Reads (next · value) rest result last) :
    Reads (fun depth => parser depth >>= next depth) tokens result last := by
  obtain ⟨enough, runs⟩ := first.both second
  exact ⟨enough, fun depth deep => bind_eq_ok.mpr ⟨value, rest, runs depth deep⟩⟩

theorem return_ (change : α → β) (reads : Reads parser tokens value rest) :
    Reads (fun depth => do return change (← parser depth)) tokens (change value) rest :=
  @Reads.bind _ _ parser tokens rest value (fun _ value => pure (change value)) _ rest reads
    (.of_eq rfl)

/-- A parser that goes one call deeper on all or on fewer tokens. -/
theorem deeper {outer : Nat → Parser α} {others : List Token}
    (reads : Reads parser tokens value rest)
    (same : ∀ depth, outer (depth + 1) others = parser depth tokens) :
    Reads outer others value rest := by
  obtain ⟨enough, run⟩ := reads
  refine ⟨enough + 1, fun depth deep => ?_⟩
  obtain ⟨depth, rfl⟩ := Nat.exists_eq_add_of_lt deep
  exact (same _).trans (run _ (Nat.le_add_right ..))

/-- A parser that is not cut off reads what parsers of a greater depth read. -/
theorem at_ {depth taken : Nat} (reads : Reads parser tokens value rest)
    (agrees : ∀ {deeper}, depth ≤ deeper → Agrees (parser depth) (parser deeper) [] tokens)
    (settles : Settles (parser depth) taken tokens) : parser depth tokens = .ok (value, rest) := by
  obtain ⟨enough, run⟩ := reads
  have deep := run (max depth enough) (Nat.le_max_right ..)
  have same := @agrees (max depth enough) (Nat.le_max_left ..)
  cases shallow : parser depth tokens with
  | error error =>
      have fails := same.error error shallow (settles.uncut error shallow) (.inl rfl)
      rw [List.append_nil, deep] at fails
      cases fails
  | ok outcome =>
      have takes := same.ok outcome.1 outcome.2 shallow (.inl rfl)
      rw [List.append_nil, List.append_nil, deep] at takes
      rw [takes]

end Reads

section Tokens

variable {rest : List Token}

theorem upcoming_cons {token : Token} : upcoming (token :: rest) = token.kind := rfl

theorem take_reads {token : Token} {kind : TokenKind} {what : Bytes} (isKind : token.kind = kind) :
    take kind what (token :: rest) = .ok (token, rest) := by
  rw [take, if_pos (by simp [isKind])]

theorem identifier_reads {token : Token} {what : Bytes} (isName : token.kind = .identifier) :
    identifier what (token :: rest) = .ok (⟨token⟩, rest) :=
  bind_eq_ok.mpr ⟨token, rest, take_reads isName, rfl⟩

theorem skip_reads {token : Token} {kind : TokenKind} (isKind : token.kind = kind) :
    skip kind (token :: rest) = .ok (true, rest) := by
  rw [skip, if_pos (by simp [isKind])]

theorem skip_passes {kind : TokenKind} {tokens : List Token} (isOther : upcoming tokens ≠ kind) :
    skip kind tokens = .ok (false, tokens) := by
  cases tokens with
  | nil => rfl
  | cons token rest =>
      change token.kind ≠ kind at isOther
      rw [skip, if_neg (by simpa using isOther)]

end Tokens

/-! ### Expressions -/

/-- The kinds of tokens that expressions start with. -/
def starters : List TokenKind := literalKinds ++ [.identifier, .leftParen, .minus, .bang]

theorem kind_of_spells {token : Token} {value : Literal} (spells : Spells token value) :
    token.kind ∈ literalKinds := by
  cases spells with
  | int isKind | float isKind | string isKind | true_ isKind | false_ isKind =>
      rw [isKind]
      decide

theorem upcoming_mem_starters {token : Token} {kind : TokenKind} (isKind : token.kind = kind)
    (listed : kind ∈ starters) (tokens : List Token) : upcoming (token :: tokens) ∈ starters := by
  rw [← isKind] at listed
  exact listed

theorem IsExpr.starts {level : Precedence} {tokens : List Token} {expression : Expr} :
    IsExpr level tokens expression → ∀ rest, upcoming (tokens ++ rest) ∈ starters
  | .assignment isName _ _ => fun _ => upcoming_mem_starters isName (by decide) _
  | .logical _ left _ => fun _ => List.append_assoc .. ▸ IsExpr.starts left _
  | .binary _ left _ => fun _ => List.append_assoc .. ▸ IsExpr.starts left _
  | .unary (.inl isMinus) _ => fun _ => upcoming_mem_starters isMinus (by decide) _
  | .unary (.inr isBang) _ => fun _ => upcoming_mem_starters isBang (by decide) _
  | .call isName _ _ _ => fun _ => upcoming_mem_starters isName (by decide) _
  | .literal spells => fun _ => List.mem_append_left _ (kind_of_spells spells)
  | .variable isName => fun _ => upcoming_mem_starters isName (by decide) _
  | .group isOpening _ _ => fun _ => upcoming_mem_starters isOpening (by decide) _
  | .tighter inner => IsExpr.starts inner

/-- What may stand behind an expression of a level: no operator that binds tighter, and no other
assignment behind an assignment. -/
def Follows (level : Precedence) (rest : List Token) : Prop :=
  upcomingLevel rest ≤ level.level ∧ (level.level ≤ 1 → upcomingLevel rest = 0)

theorem Follows.tighter {level : Precedence} {rest : List Token} (follows : Follows level rest)
    (some : 1 ≤ level.level) : Follows level.tighter rest := by
  obtain ⟨loose, last⟩ := follows
  by_cases tightest : level = .primary
  · subst tightest
    exact ⟨loose, last⟩
  · rw [Follows, level_tighter level tightest]
    exact ⟨by omega, fun weak => by omega⟩

theorem operators_done {depth : Nat} {weakest : Precedence} {left : Expr} {rest : List Token}
    (stops : upcomingLevel rest < weakest.level) :
    operatorsWithin (depth + 1) weakest left rest = .ok (left, rest) := by
  rw [upcomingLevel] at stops
  rw [operatorsWithin, peek_bind, if_neg (Nat.not_le.mpr stops)]
  rfl

theorem reads_done {weakest : Precedence} {left : Expr} {rest : List Token}
    (stops : upcomingLevel rest < weakest.level) :
    Reads (operatorsWithin · weakest left) rest left rest :=
  (Reads.of_eq (show (pure left : Parser Expr) rest = .ok (left, rest) from rfl)).deeper
    fun _ => operators_done stops

/-- The next operator is taken if it binds tightly enough. -/
theorem reads_operator {weakest : Precedence} {left larger value : Expr}
    {tokens rest last : List Token} (reaches : weakest.level ≤ upcomingLevel tokens)
    (one : Reads (operatorWithin · left) tokens larger rest)
    (others : Reads (operatorsWithin · weakest larger) rest value last) :
    Reads (operatorsWithin · weakest left) tokens value last := by
  rw [upcomingLevel] at reaches
  refine (one.bind others).deeper fun depth => ?_
  rw [operatorsWithin, peek_bind, if_pos reaches]

theorem reads_operand {weakest : Precedence} {left value : Expr} {tokens rest last : List Token}
    (first : Reads primaryWithin tokens left rest)
    (others : Reads (operatorsWithin · weakest left) rest value last) :
    Reads (operandWithin · weakest) tokens value last := by
  refine (first.bind others).deeper fun depth => ?_
  rw [operandWithin]

theorem upcomingLevel_cons {operator : Token} {rest : List Token} :
    upcomingLevel (operator :: rest) = (Precedence.ofOperator operator.kind).level := rfl

theorem upcomingLevel_ne_unary (tokens : List Token) :
    upcomingLevel tokens ≠ Precedence.unary.level := by
  rw [upcomingLevel]
  cases upcoming tokens with
  | unlisted => exact (Nat.succ_ne_zero _).symm
  | _ => decide

theorem reads_pure {result : α} {rest : List Token} :
    Reads (fun _ => (pure result : Parser α)) rest result rest := .of_eq rfl

theorem reads_take {token : Token} {kind : TokenKind} {what : Bytes} {rest : List Token}
    (isKind : token.kind = kind) : Reads (fun _ => take kind what) (token :: rest) token rest :=
  .of_eq (take_reads isKind)

theorem binary_levels {level : Precedence} {kind : TokenKind}
    (member : kind ∈ arithmetic level ∨ kind ∈ connectives level) :
    2 ≤ level.level ∧ level ≠ .primary := by
  cases level <;> first | exact ⟨by decide, by decide⟩ | simp [arithmetic, connectives] at member

/-- Tokens are read as an operand of every weaker level, whatever operators follow. -/
def Readable (level : Precedence) (tokens : List Token) (expression : Expr) : Prop :=
  ∀ (weakest : Precedence) (rest last : List Token) (value : Expr), 1 ≤ weakest.level →
    weakest.level ≤ level.level → Follows level rest →
    Reads (operatorsWithin · weakest expression) rest value last →
    Reads (operandWithin · weakest) (tokens ++ rest) value last

namespace Readable

variable {level : Precedence} {first second tokens : List Token} {left right : Expr}
  {operator : Token}

/-- An operand that no operator follows. -/
theorem alone {expression : Expr} {rest : List Token} (readable : Readable level tokens expression)
    (some : 1 ≤ level.level) (stops : upcomingLevel rest < level.level)
    (last : level.level ≤ 1 → upcomingLevel rest = 0) :
    Reads (operandWithin · level) (tokens ++ rest) expression rest :=
  readable level rest rest expression some (Nat.le_refl _) ⟨Nat.le_of_lt stops, last⟩
    (reads_done stops)

theorem of_primary {expression : Expr}
    (reads : ∀ rest, Reads primaryWithin (tokens ++ rest) expression rest) :
    Readable .primary tokens expression :=
  fun _ rest _ _ _ _ _ others => reads_operand (reads rest) others

theorem assignment {target : Token} {value : Expr} (isName : target.kind = .identifier)
    (assigns : operator.kind.isAssignment = true) (readable : Readable .assignment tokens value) :
    Readable .assignment (target :: operator :: tokens) (.assignment ⟨target⟩ operator value) := by
  intro weakest rest last result some weak follows others
  have stops : upcomingLevel rest = 0 := follows.2 (Nat.le_refl _)
  have reaches : weakest.level ≤ upcomingLevel (operator :: (tokens ++ rest)) := by
    rw [upcomingLevel_cons, ofOperator_of_isAssignment assigns]
    exact weak
  have assigned : Reads (operandWithin · .assignment) (tokens ++ rest) value rest :=
    readable.alone (by decide) (by rw [stops]; decide) fun _ => stops
  have one : Reads (operatorWithin · (.variable ⟨target⟩)) (operator :: (tokens ++ rest))
      (.assignment ⟨target⟩ operator value) rest :=
    (assigned.return_ (Expr.assignment ⟨target⟩ operator)).deeper fun _ =>
      operatorWithin_assignment assigns
  have name : Reads primaryWithin (target :: operator :: (tokens ++ rest)) (.variable ⟨target⟩)
      (operator :: (tokens ++ rest)) :=
    reads_pure.deeper fun _ => primaryWithin_variable isName
  exact reads_operand name (reads_operator reaches one others)

/-- A binary operator of a level, between a left operand of the same level and a right operand of
the next one. -/
theorem between {make : Expr → Expr}
    (member : operator.kind ∈ arithmetic level ∨ operator.kind ∈ connectives level)
    (takes : ∀ depth rest, operatorWithin (depth + 1) left (operator :: rest) =
      (do
        let right ← operandWithin depth level.tighter
        return make right : Parser Expr) rest)
    (readable : Readable level first left) (readable' : Readable level.tighter second right) :
    Readable level (first ++ operator :: second) (make right) := by
  intro weakest rest last value some weak follows others
  obtain ⟨low, tight⟩ := binary_levels member
  have higher := level_tighter level tight
  have here : upcomingLevel (operator :: (second ++ rest)) = level.level := by
    rw [upcomingLevel_cons, member.elim ofOperator_of_arithmetic ofOperator_of_connectives]
  have behind : upcomingLevel rest < level.tighter.level := by
    have loose := follows.1
    omega
  have operand : Reads (operandWithin · level.tighter) (second ++ rest) right rest :=
    readable'.alone (by omega) behind fun _ => by omega
  have one : Reads (operatorWithin · left) (operator :: (second ++ rest)) (make right) rest :=
    (operand.return_ make).deeper fun depth => takes depth _
  rw [List.append_assoc]
  exact readable weakest _ last value some weak ⟨Nat.le_of_eq here, fun _ => by omega⟩
    (reads_operator (here ▸ weak) one others)

theorem unary {operand : Expr} (isOperator : operator.kind = .minus ∨ operator.kind = .bang)
    (readable : Readable .unary tokens operand) :
    Readable .unary (operator :: tokens) (.unary operator operand) := by
  intro weakest rest last value some weak follows others
  -- No operator binds at the level of the unary ones.
  have behind : upcomingLevel rest < Precedence.unary.level :=
    Nat.lt_of_le_of_ne follows.1 (upcomingLevel_ne_unary rest)
  have inner : Reads (operandWithin · .unary) (tokens ++ rest) operand rest :=
    readable.alone (by decide) behind follows.2
  exact reads_operand ((inner.return_ (.unary operator)).deeper
    fun _ => primaryWithin_unary isOperator) others

theorem call {callee opening closing : Token} {arguments : List Expr}
    (isName : callee.kind = .identifier) (isOpening : opening.kind = .leftParen)
    (isClosing : closing.kind = .rightParen)
    (reads : ∀ rest, upcoming rest = .rightParen →
      Reads argumentList (tokens ++ rest) arguments rest) :
    Readable .call (callee :: opening :: (tokens ++ [closing]))
      (.call ⟨callee⟩ arguments closing) := by
  intro weakest rest last value some weak follows others
  have reaches : weakest.level ≤ upcomingLevel (opening :: (tokens ++ closing :: rest)) := by
    rw [upcomingLevel_cons, isOpening]
    exact weak
  have closes : Reads (fun _ => do return .call ⟨callee⟩ arguments (← take .rightParen
      "')' after arguments") : Nat → Parser Expr) (closing :: rest)
        (.call ⟨callee⟩ arguments closing)
      rest := (reads_take isClosing).return_ (Expr.call ⟨callee⟩ arguments)
  have one : Reads (operatorWithin · (.variable ⟨callee⟩)) (opening :: (tokens ++ closing :: rest))
      (.call ⟨callee⟩ arguments closing) rest :=
    ((reads (closing :: rest) isClosing).bind closes).deeper fun _ => operatorWithin_call isOpening
  have name : Reads primaryWithin (callee :: opening :: (tokens ++ closing :: rest))
      (.variable ⟨callee⟩) (opening :: (tokens ++ closing :: rest)) :=
    reads_pure.deeper fun _ => primaryWithin_variable isName
  simpa only [List.cons_append, List.append_assoc, List.nil_append] using
    reads_operand name (reads_operator reaches one others)

theorem literal {token : Token} {value : Literal} (spells : Spells token value) :
    Readable .primary [token] (.literal token value) := by
  have listed := kind_of_spells spells
  refine of_primary fun rest => reads_pure.deeper fun _ => ?_
  rw [List.singleton_append, primaryWithin_literal listed,
    (literal_eq_ok listed).mpr ⟨value, spells, rfl⟩]
  rfl

theorem variable_ {token : Token} (isName : token.kind = .identifier) :
    Readable .primary [token] (.variable ⟨token⟩) :=
  of_primary fun _ => reads_pure.deeper fun _ => primaryWithin_variable isName

theorem group {opening closing : Token} {inner : Expr} (isOpening : opening.kind = .leftParen)
    (isClosing : closing.kind = .rightParen) (readable : Readable .assignment tokens inner) :
    Readable .primary (opening :: (tokens ++ [closing])) (.group opening inner closing) := by
  refine of_primary fun rest => ?_
  have stops : upcomingLevel (closing :: rest) = 0 := by
    rw [upcomingLevel_cons, isClosing]
    rfl
  have within : Reads (operandWithin · .assignment) (tokens ++ closing :: rest) inner
      (closing :: rest) := readable.alone (by decide) (by rw [stops]; decide) fun _ => stops
  have closes : Reads (fun _ => do return .group opening inner (← take .rightParen
      "')' after expression") : Nat → Parser Expr) (closing :: rest) (.group opening inner closing)
      rest := (reads_take isClosing).return_ (Expr.group opening inner)
  simpa only [List.cons_append, List.append_assoc, List.nil_append] using
    (within.bind closes).deeper fun _ => primaryWithin_group isOpening

theorem of_tighter {expression : Expr} (readable : Readable level.tighter tokens expression) :
    Readable level tokens expression := by
  intro weakest rest last value some weak follows others
  by_cases tightest : level = .primary
  · subst tightest
    exact readable weakest rest last value some weak follows others
  · have higher := level_tighter level tightest
    exact readable weakest rest last value some (by omega) (follows.tighter (by omega)) others

end Readable

mutual

theorem IsExpr.readable {level : Precedence} {tokens : List Token} {expression : Expr} :
    IsExpr level tokens expression → Readable level tokens expression
  | .assignment isName assigns value => .assignment isName assigns (IsExpr.readable value)
  | .logical member left right =>
      .between (.inr member) (fun _ _ => operatorWithin_logical member) (IsExpr.readable left)
        (IsExpr.readable right)
  | .binary member left right =>
      .between (.inl member) (fun _ _ => operatorWithin_binary member) (IsExpr.readable left)
        (IsExpr.readable right)
  | .unary isOperator operand => .unary isOperator (IsExpr.readable operand)
  | .call isName isOpening isClosing arguments =>
      .call isName isOpening isClosing (AreArguments.reads arguments)
  | .literal spells => .literal spells
  | .variable isName => .variable_ isName
  | .group isOpening isClosing inner => .group isOpening isClosing (IsExpr.readable inner)
  | .tighter inner => .of_tighter (IsExpr.readable inner)

theorem AreArguments.reads {tokens : List Token} {arguments : List Expr} :
    AreArguments tokens arguments →
      ∀ rest, upcoming rest = .rightParen → Reads argumentList (tokens ++ rest) arguments rest
  | .none => by
      intro rest closes
      refine ⟨0, fun depth _ => ?_⟩
      rw [List.nil_append, argumentList, peek_bind, if_pos (by rw [closes]; decide)]
      rfl
  | .some arguments => by
      intro rest closes
      obtain ⟨starts, enough, run⟩ := AreSomeArguments.reads arguments rest closes
      refine ⟨enough, fun depth deep => ?_⟩
      rw [argumentList, peek_bind, if_neg]
      · exact run depth deep
      · intro empty
        rw [eq_of_beq empty] at starts
        exact absurd starts (by decide)

theorem AreSomeArguments.reads {tokens : List Token} {arguments : List Expr} :
    AreSomeArguments tokens arguments →
      ∀ rest, upcoming rest = .rightParen →
        upcoming (tokens ++ rest) ∈ starters ∧ Reads argumentsWithin (tokens ++ rest) arguments rest
  | @AreSomeArguments.one tokens argument derived => by
      intro rest closes
      have stops : upcomingLevel rest = 0 := by
        rw [upcomingLevel, closes]
        rfl
      have first : Reads (operandWithin · .assignment) (tokens ++ rest) argument rest :=
        (IsExpr.readable derived).alone (by decide) (by rw [stops]; decide) fun _ => stops
      have ends : Reads (fun _ => skip .comma) rest false rest :=
        .of_eq (skip_passes (by rw [closes]; decide))
      refine ⟨IsExpr.starts derived rest, ?_⟩
      refine (first.bind (ends.bind ?_)).deeper fun _ => by rw [argumentsWithin]
      exact reads_pure
  | @AreSomeArguments.more first rest' comma argument others derived isComma later => by
      intro rest closes
      have stops : upcomingLevel (comma :: (rest' ++ rest)) = 0 := by
        rw [upcomingLevel_cons, isComma]
        rfl
      have one : Reads (operandWithin · .assignment) (first ++ comma :: (rest' ++ rest)) argument
          (comma :: (rest' ++ rest)) :=
        (IsExpr.readable derived).alone (by decide) (by rw [stops]; decide) fun _ => stops
      have goesOn : Reads (fun _ => skip .comma) (comma :: (rest' ++ rest)) true (rest' ++ rest) :=
        .of_eq (skip_reads isComma)
      have ending := (AreSomeArguments.reads later rest closes).2.return_ (argument :: ·)
      rw [List.append_assoc, List.cons_append]
      refine ⟨IsExpr.starts derived _, ?_⟩
      refine (one.bind (goesOn.bind ?_)).deeper fun _ => by rw [argumentsWithin]
      exact ending

end

theorem expression_reads {tokens rest : List Token} {value : Expr}
    (derived : IsExpr .assignment tokens value) (stops : upcomingLevel rest = 0) :
    expression (tokens ++ rest) = .ok (value, rest) := by
  have reads : Reads (operandWithin · .assignment) (tokens ++ rest) value rest :=
    (IsExpr.readable derived).alone (by decide) (by rw [stops]; decide) fun _ => stops
  exact reads.at_ (fun deep => (agreeExprs deep).operand (by decide))
    ((settlesExprs _).operand (by decide) (by omega))

end ScriptCompiler.Parser
