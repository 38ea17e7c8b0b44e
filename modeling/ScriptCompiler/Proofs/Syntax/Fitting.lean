import ScriptCompiler.Proofs.Syntax.Literals

/-!
# Parsers that fit the grammar

A parser fits a language if it takes only tokens of the language, and if tokens at whose end it
fails can be continued to tokens of the language.  Such facts are put together like the parsers
themselves: the second half needs only that every language has some tokens at all, because a
language does not ask what stands behind its tokens.

All parsers of the script language fit the grammar, at every depth (`fits_operand`,
`fits_statement`, `fits_items`).
-/

namespace ScriptCompiler.Parser

open Grammar

variable {α β : Type}

/-- What may be read: tokens and the value that they stand for. -/
abbrev Language (α : Type) := List Token → α → Prop

/-- Tokens none of which ends the input. -/
def Plain (tokens : List Token) : Prop := ∀ token ∈ tokens, token.kind ≠ .eof

/-- The kind of the next token. -/
def upcoming (tokens : List Token) : TokenKind := (tokens.head?.map Token.kind).getD .eof

/-- The level at which the next token binds what stands before it. -/
def upcomingLevel (tokens : List Token) : Nat := (Precedence.ofOperator (upcoming tokens)).level

theorem Plain.nil : Plain [] := List.forall_mem_nil _

theorem Plain.append {first second : List Token} (left : Plain first) (right : Plain second) :
    Plain (first ++ second) := by
  intro token member
  rcases List.mem_append.mp member with here | there
  · exact left token here
  · exact right token there

theorem Plain.cons {token : Token} {tokens : List Token} (first : token.kind ≠ .eof)
    (rest : Plain tokens) : Plain (token :: tokens) := List.forall_mem_cons.mpr ⟨first, rest⟩

namespace Language

/-- The tokens of one language and then those of another one. -/
def Seq (first : Language α) (second : α → Language β) : Language β := fun tokens result =>
  ∃ left right value, tokens = left ++ right ∧ first left value ∧ second value right result

/-- A language has tokens at all. -/
def Productive (language : Language α) : Prop :=
  ∃ tokens value, Plain tokens ∧ language tokens value

/-- A token of a kind. -/
def One (kind : TokenKind) : Language Token := fun tokens token =>
  tokens = [token] ∧ token.kind = kind

end Language

open Parser.Language

section Runs

variable {parser : Parser α} {next : α → Parser β} {tokens : List Token}

theorem bind_eq_ok {result : β × List Token} :
    (parser >>= next) tokens = .ok result ↔
      ∃ value rest, parser tokens = .ok (value, rest) ∧ next value rest = .ok result := by
  simp only [Bind.bind, StateT.bind, Except.bind]
  cases parser tokens with
  | error error => simp
  | ok outcome => cases outcome; simp [and_assoc]

theorem bind_eq_error {error : SyntaxError} :
    (parser >>= next) tokens = .error error ↔
      parser tokens = .error error ∨
        ∃ value rest, parser tokens = .ok (value, rest) ∧ next value rest = .error error := by
  simp only [Bind.bind, StateT.bind, Except.bind]
  cases parser tokens with
  | error error => simp
  | ok outcome => cases outcome; simp [and_assoc]

theorem peek_bind (next : TokenKind → Parser β) (tokens : List Token) :
    (peek >>= next) tokens = next (upcoming tokens) tokens := rfl

end Runs

/-- On some input, a parser takes tokens of a language, and where the input ends too early, it can
be continued to tokens of the language. -/
structure FitsAt (parser : Parser α) (language : Language α) (tokens : List Token) : Prop where
  sound : ∀ value rest, parser tokens = .ok (value, rest) →
    ∃ used, tokens = used ++ rest ∧ language used value
  finish : ∀ fault, parser tokens = .error ⟨fault, none⟩ → fault ≠ .tooDeep →
    ∃ more value, Plain more ∧ language (tokens ++ more) value

/-- A parser fits a language, which has tokens at all. -/
structure Fits (parser : Parser α) (language : Language α) : Prop where
  at_ : ∀ tokens, FitsAt parser language tokens
  productive : language.Productive

namespace FitsAt

variable {parser : Parser α} {language : Language α} {tokens : List Token}

theorem bind {next : α → Parser β} {later : α → Language β} (first : FitsAt parser language tokens)
    (second : ∀ value rest, parser tokens = .ok (value, rest) →
      FitsAt (next value) (later value) rest)
    (productive : ∀ value, (later value).Productive) :
    FitsAt (parser >>= next) (Seq language later) tokens where
  sound := by
    intro result rest run
    obtain ⟨value, middle, firstRun, secondRun⟩ := bind_eq_ok.mp run
    obtain ⟨left, rfl, fits⟩ := first.sound value middle firstRun
    obtain ⟨right, rfl, fits'⟩ := (second value middle firstRun).sound result rest secondRun
    exact ⟨left ++ right, (List.append_assoc ..).symm, left, right, value, rfl, fits, fits'⟩
  finish := by
    intro fault run deep
    rcases bind_eq_error.mp run with early | ⟨value, middle, firstRun, late⟩
    · -- The first parser is continued, and anything of the second language put behind it.
      obtain ⟨more, value, plain, fits⟩ := first.finish fault early deep
      obtain ⟨others, result, plain', fits'⟩ := productive value
      exact ⟨more ++ others, result, plain.append plain', tokens ++ more, others, value,
        (List.append_assoc ..).symm, fits, fits'⟩
    · obtain ⟨left, rfl, fits⟩ := first.sound value middle firstRun
      obtain ⟨more, result, plain, fits'⟩ := (second value middle firstRun).finish fault late deep
      exact ⟨more, result, plain, left, middle ++ more, value, List.append_assoc .., fits, fits'⟩

theorem mono {larger : Language α} (fits : FitsAt parser language tokens)
    (weaker : ∀ used value, language used value → larger used value) :
    FitsAt parser larger tokens where
  sound := by
    intro value rest run
    obtain ⟨used, split, holds⟩ := fits.sound value rest run
    exact ⟨used, split, weaker used value holds⟩
  finish := by
    intro fault run deep
    obtain ⟨more, value, plain, holds⟩ := fits.finish fault run deep
    exact ⟨more, value, plain, weaker _ value holds⟩

/-- A parser that fails at once could still read anything. -/
theorem failHere (fault : SyntaxFault) (productive : language.Productive) :
    FitsAt (Parser.failHere fault) language tokens where
  sound := nofun
  finish := by
    intro fault' run _
    cases tokens with
    | nil =>
        obtain ⟨more, value, plain, holds⟩ := productive
        exact ⟨more, value, plain, holds⟩
    | cons token rest => cases run

theorem tooDeep : FitsAt (Parser.failHere .tooDeep) language tokens where
  sound := nofun
  finish _ run deep := absurd (SyntaxError.mk.inj (Except.error.inj run)).1.symm deep

end FitsAt

namespace Fits

variable {parser : Parser α} {language : Language α}

theorem pure (value : α) :
    Fits (Pure.pure value) fun tokens result => tokens = [] ∧ result = value where
  at_ tokens :=
    { sound := by
        rintro result rest ⟨⟩
        exact ⟨[], rfl, rfl, rfl⟩
      finish := nofun }
  productive := ⟨[], value, .nil, rfl, rfl⟩

theorem bind {next : α → Parser β} {later : α → Language β} (first : Fits parser language)
    (second : ∀ value, Fits (next value) (later value)) :
    Fits (parser >>= next) (Seq language later) where
  at_ tokens := (first.at_ tokens).bind (fun value rest _ => (second value).at_ rest)
    fun value => (second value).productive
  productive := by
    obtain ⟨left, value, plain, fits⟩ := first.productive
    obtain ⟨right, result, plain', fits'⟩ := (second value).productive
    exact ⟨left ++ right, result, plain.append plain', left, right, value, rfl, fits, fits'⟩

theorem map (change : α → β) (first : Fits parser language) :
    Fits (change <$> parser) fun tokens result => ∃ value, language tokens value ∧
    result = change value := by
  rw [map_eq_pure_bind]
  have whole := first.bind fun value => pure (change value)
  refine ⟨fun tokens => (whole.at_ tokens).mono ?_, ?_⟩
  · rintro used result ⟨left, right, value, rfl, fits, rfl, rfl⟩
    exact ⟨value, by simpa using fits, rfl⟩
  · obtain ⟨tokens, value, plain, fits⟩ := first.productive
    exact ⟨tokens, change value, plain, value, fits, rfl⟩

theorem mono {larger : Language α} (fits : Fits parser language)
    (weaker : ∀ used value, language used value → larger used value) : Fits parser larger where
  at_ tokens := (fits.at_ tokens).mono weaker
  productive := by
    obtain ⟨tokens, value, plain, holds⟩ := fits.productive
    exact ⟨tokens, value, plain, weaker tokens value holds⟩

theorem failHere (fault : SyntaxFault) (productive : language.Productive) :
    Fits (Parser.failHere fault) language :=
  ⟨fun _ => .failHere fault productive, productive⟩

theorem ite {test : Prop} [Decidable test] {other : Parser α} (first : Fits parser language)
    (second : Fits other language) : Fits (if test then parser else other) language := by
  split
  · exact first
  · exact second

/-- A parser that looks at the next token first. -/
theorem peek {next : TokenKind → Parser α} (fits : ∀ kind, Fits (next kind) language) :
    Fits (Parser.peek >>= next) language where
  at_ tokens :=
    { sound := ((fits (upcoming tokens)).at_ tokens).sound
      finish := ((fits (upcoming tokens)).at_ tokens).finish }
  productive := (fits .eof).productive

end Fits

section Tokens

theorem fits_take (kind : TokenKind) (what : Bytes) (visible : kind ≠ .eof) :
    Fits (take kind what) (One kind) where
  at_ tokens :=
    { sound := by
        intro value rest run
        cases tokens with
        | nil => cases run
        | cons token others =>
            simp only [take] at run
            split at run
            · rename_i isKind
              cases run
              exact ⟨[_], rfl, rfl, by simpa using isKind⟩
            · cases run
      finish := by
        intro fault run _
        cases tokens with
        | nil =>
            exact ⟨[⟨kind, [], {}⟩], ⟨kind, [], {}⟩, .cons visible .nil, rfl, rfl⟩
        | cons token others =>
            simp only [take] at run
            split at run <;> cases run }
  productive := ⟨[⟨kind, [], {}⟩], ⟨kind, [], {}⟩, .cons visible .nil, rfl, rfl⟩

theorem fits_identifier (what : Bytes) :
    Fits (identifier what) fun tokens name => tokens = [name.token] ∧
    name.token.kind = .identifier := by
  refine ((fits_take .identifier what (by decide)).bind fun token =>
    Fits.pure (⟨token⟩ : Identifier)).mono ?_
  rintro used name ⟨left, right, token, rfl, ⟨rfl, isName⟩, rfl, rfl⟩
  exact ⟨rfl, isName⟩

theorem fits_skip (kind : TokenKind) :
    Fits (skip kind) fun tokens found =>
      (found = true ∧ ∃ token, tokens = [token] ∧ token.kind = kind) ∨
        (found = false ∧ tokens = []) where
  at_ tokens :=
    { sound := by
        intro value rest run
        cases tokens with
        | nil =>
            cases run
            exact ⟨[], rfl, .inr ⟨rfl, rfl⟩⟩
        | cons token others =>
            simp only [skip] at run
            split at run
            · rename_i isKind
              cases run
              exact ⟨[token], rfl, .inl ⟨rfl, token, rfl, by simpa using isKind⟩⟩
            · cases run
              exact ⟨[], rfl, .inr ⟨rfl, rfl⟩⟩
      finish := by
        intro fault run _
        cases tokens with
        | nil => cases run
        | cons token others =>
            simp only [skip] at run
            split at run <;> cases run }
  productive := ⟨[], false, .nil, .inr ⟨rfl, rfl⟩⟩

/-- What is read behind a token that may stand there or not. -/
theorem Fits.skip {kind : TokenKind} {present absent : Parser α} {first second : Language α}
    (found : Fits present first) (missing : Fits absent second) :
    Fits (Parser.skip kind >>= fun found => if found = true then present else absent)
      fun tokens value =>
        (∃ token rest, tokens = token :: rest ∧ token.kind = kind ∧ first rest value) ∨
        second tokens value where
  at_ tokens := by
    have branches : ∀ flag, Fits (if flag = true then present else absent)
        (fun tokens value => if flag = true then first tokens value else second tokens value) := by
      intro flag
      cases flag
      · exact missing
      · exact found
    refine (((fits_skip kind).bind branches).at_ tokens).mono ?_
    rintro used value ⟨left, right, flag, rfl, ⟨rfl, token, rfl, isKind⟩ | ⟨rfl, rfl⟩, holds⟩
    · exact .inl ⟨token, right, rfl, isKind, holds⟩
    · exact .inr holds
  productive := by
    obtain ⟨tokens, value, plain, holds⟩ := missing.productive
    exact ⟨tokens, value, plain, .inr holds⟩

end Tokens

/-- What a parser does behind a token that it has taken. -/
theorem FitsAt.behind {parser inner : Parser α} {language larger : Language α} {token : Token}
    {rest : List Token} (fits : FitsAt inner language rest)
    (same : parser (token :: rest) = inner rest)
    (weaker : ∀ used value, language used value → larger (token :: used) value) :
    FitsAt parser larger (token :: rest) where
  sound := by
    intro value last run
    obtain ⟨used, rfl, holds⟩ := fits.sound value last (same ▸ run)
    exact ⟨token :: used, rfl, weaker used value holds⟩
  finish := by
    intro fault run deep
    obtain ⟨more, value, plain, holds⟩ := fits.finish fault (same ▸ run) deep
    exact ⟨more, value, plain, weaker _ value holds⟩

theorem FitsAt.of_ok {parser : Parser α} {language : Language α} {token : Token} {rest : List Token}
    {value : α} (takes : parser (token :: rest) = .ok (value, rest))
    (holds : language [token] value) :
    FitsAt parser language (token :: rest) where
  sound other last run := by
    rw [takes] at run
    cases run
    exact ⟨[token], rfl, holds⟩
  finish fault run := by
    rw [takes] at run
    cases run

theorem FitsAt.congr {parser other : Parser α} {language : Language α} {tokens : List Token}
    (fits : FitsAt parser language tokens) (same : other tokens = parser tokens) :
    FitsAt other language tokens where
  sound := same ▸ fits.sound
  finish := same ▸ fits.finish

theorem FitsAt.of_error {parser : Parser α} {language : Language α} {tokens : List Token}
    {fault : SyntaxFault} {token : Token} (fails : parser tokens = .error ⟨fault, some token⟩) :
    FitsAt parser language tokens where
  sound value rest run := by
    rw [fails] at run
    cases run
  finish other run _ := by
    rw [fails] at run
    cases run

/-! ### Expressions -/

section Operators

variable {kind : TokenKind}

theorem arithmetic_facts {level : Precedence} (member : kind ∈ arithmetic level) :
    kind.isAssignment = false ∧ (kind == .bothAnd || kind == .eitherOr) = false ∧
      (kind == .leftParen) = false ∧ Precedence.ofRightOperand kind = level.tighter := by
  cases level <;> simp only [arithmetic, List.mem_cons, List.not_mem_nil, or_false] at member <;>
    rcases member with rfl | rfl | rfl | rfl <;> exact ⟨rfl, rfl, rfl, rfl⟩

theorem connectives_facts {level : Precedence} (member : kind ∈ connectives level) :
    kind.isAssignment = false ∧ (kind == .bothAnd || kind == .eitherOr) = true ∧
      Precedence.ofRightOperand kind = level.tighter := by
  cases level <;> simp only [connectives, List.mem_singleton, List.not_mem_nil] at member <;>
    subst member <;> exact ⟨rfl, rfl, rfl⟩

theorem ofRightOperand_of_isAssignment (assigns : kind.isAssignment = true) :
    Precedence.ofRightOperand kind = .assignment := by
  cases kind <;> first | rfl | cases assigns

theorem ofOperator_le_call (kind : TokenKind) :
    (Precedence.ofOperator kind).level ≤ Precedence.call.level := by
  cases kind with
  | unlisted => exact Nat.zero_le _
  | _ => decide

/-- The levels that operands are read at. -/
def IsOperandLevel (level : Precedence) : Prop :=
  Precedence.assignment.level ≤ level.level ∧ level.level ≤ Precedence.unary.level

theorem isOperandLevel_tighter {level : Precedence}
    (member : kind ∈ arithmetic level ∨ kind ∈ connectives level) :
    IsOperandLevel level.tighter := by
  cases level <;> first
    | exact ⟨by decide, by decide⟩
    | simp [arithmetic, connectives] at member

end Operators

section Equations

attribute [local simp] primaryWithin operatorWithin

variable {depth : Nat} {token operator : Token} {rest : List Token} {left : Expr}

theorem primaryWithin_nil :
    primaryWithin (depth + 1) [] = .error ⟨.expected "expression", none⟩ := by
  rw [primaryWithin]

theorem primaryWithin_literal (listed : token.kind ∈ literalKinds) :
    primaryWithin (depth + 1) (token :: rest) =
      (literal token).map fun expression => (expression, rest) := by
  simp only [literalKinds, List.mem_cons, List.not_mem_nil, or_false] at listed
  rw [primaryWithin]
  rcases listed with isKind | isKind | isKind | isKind | isKind <;> simp only [isKind]

theorem primaryWithin_variable (isName : token.kind = .identifier) :
    primaryWithin (depth + 1) (token :: rest) = .ok (.variable ⟨token⟩, rest) := by
  rw [primaryWithin]
  simp only [isName]

theorem primaryWithin_group (isOpening : token.kind = .leftParen) :
    primaryWithin (depth + 1) (token :: rest) =
      (do
        let inner ← operandWithin depth .assignment
        let closing ← take .rightParen "')' after expression"
        return .group token inner closing : Parser Expr) rest := by
  rw [primaryWithin]
  simp only [isOpening]

theorem primaryWithin_unary (isOperator : token.kind = .minus ∨ token.kind = .bang) :
    primaryWithin (depth + 1) (token :: rest) =
      (do
        let operand ← operandWithin depth .unary
        return .unary token operand : Parser Expr) rest := by
  rw [primaryWithin]
  rcases isOperator with isKind | isKind <;> simp only [isKind]

theorem primaryWithin_other (noLiteral : token.kind ∉ literalKinds)
    (noName : token.kind ≠ .identifier) (noOpening : token.kind ≠ .leftParen)
    (noOperator : ¬ (token.kind = .minus ∨ token.kind = .bang)) :
    primaryWithin (depth + 1) (token :: rest) = .error ⟨.expected "expression", some token⟩ := by
  rw [primaryWithin]
  cases isKind : token.kind <;> simp_all [literalKinds]

/-- The arguments of a call up to its closing parenthesis. -/
def argumentList (depth : Nat) : Parser (List Expr) := do
  if (← peek) == .rightParen then pure [] else argumentsWithin depth

theorem operatorWithin_assignment {target : Identifier}
    (assigns : operator.kind.isAssignment = true) :
    operatorWithin (depth + 1) (.variable target) (operator :: rest) =
      (do
        let value ← operandWithin depth .assignment
        return .assignment target operator value : Parser Expr) rest := by
  rw [operatorWithin]
  simp only [assigns, if_true, ofRightOperand_of_isAssignment assigns]

theorem operatorWithin_logical {level : Precedence} (member : operator.kind ∈ connectives level) :
    operatorWithin (depth + 1) left (operator :: rest) =
      (do
        let right ← operandWithin depth level.tighter
        return .logical left operator right : Parser Expr) rest := by
  obtain ⟨noAssignment, connects, isRight⟩ := connectives_facts member
  rw [operatorWithin]
  simp only [noAssignment, connects, isRight, Bool.false_eq_true, if_false, if_true]

theorem operatorWithin_call {callee : Identifier} (calls : operator.kind = .leftParen) :
    operatorWithin (depth + 1) (.variable callee) (operator :: rest) =
      (do
        let arguments ← argumentList depth
        let closing ← take .rightParen "')' after arguments"
        return .call callee arguments closing : Parser Expr) rest := by
  rw [operatorWithin]
  simp only [calls]
  rw [if_neg (by decide), if_neg (by decide), if_pos (by decide), argumentList, bind_assoc,
    peek_bind,
    peek_bind]
  split <;> rfl

theorem operatorWithin_binary {level : Precedence} (member : operator.kind ∈ arithmetic level) :
    operatorWithin (depth + 1) left (operator :: rest) =
      (do
        let right ← operandWithin depth level.tighter
        return .binary left operator right : Parser Expr) rest := by
  obtain ⟨noAssignment, noConnective, noCall, isRight⟩ := arithmetic_facts member
  rw [operatorWithin]
  simp only [noAssignment, noConnective, noCall, isRight, Bool.false_eq_true, if_false]

/-- What is assigned to must be a name. -/
theorem operatorWithin_noTarget (assigns : operator.kind.isAssignment = true)
    (noName : ∀ target, left ≠ .variable target) :
    operatorWithin (depth + 1) left (operator :: rest) =
      .error ⟨.targetInvalid, some operator⟩ := by
  rw [operatorWithin]
  simp only [assigns, if_true]

/-- What is called must be a name. -/
theorem operatorWithin_noCallee (calls : operator.kind = .leftParen)
    (noName : ∀ callee, left ≠ .variable callee) :
    operatorWithin (depth + 1) left (operator :: rest) =
      .error ⟨.calleeInvalid, some operator⟩ := by
  rw [operatorWithin]
  simp only [calls]
  rw [if_neg (by decide), if_neg (by decide), if_pos (by decide)]

/-- The operators that bind their left operand. -/
theorem operator_cases {kind : TokenKind} (binds : 1 ≤ (Precedence.ofOperator kind).level) :
    kind.isAssignment = true ∨ kind ∈ connectives (Precedence.ofOperator kind) ∨
      kind = .leftParen ∨ kind ∈ arithmetic (Precedence.ofOperator kind) := by
  cases kind with
  | unlisted => exact absurd binds (Nat.not_succ_le_zero 0)
  | _ => first | exact absurd binds (by decide) | decide

end Equations

/-- The literal that stands for any expression. -/
def someInt : Token := ⟨.int, [0x30], {}⟩

theorem isExpr_someInt (level : Precedence) :
    IsExpr level [someInt] (.literal someInt (.int 0)) := by
  have spells : Spells someInt (.int 0) :=
    .int rfl (.plain (.one (by decide))) (by decide) (by decide)
  exact (IsExpr.literal spells).weaken (level_le_primary level)

theorem productive_isExpr (level : Precedence) : Productive (IsExpr level) :=
  ⟨[someInt], _, .cons (by decide) .nil, isExpr_someInt level⟩

theorem operators_stops {depth : Nat} {weakest : Precedence} {left expression : Expr}
    {tokens rest : List Token}
    (run : operatorsWithin depth weakest left tokens = .ok (expression, rest)) :
    upcomingLevel rest < weakest.level := by
  induction depth generalizing left tokens with
  | zero => cases run
  | succ depth ih =>
      rw [operatorsWithin, peek_bind] at run
      split at run
      · obtain ⟨larger, middle, _, later⟩ := bind_eq_ok.mp run
        exact ih later
      · rename_i weak
        cases run
        exact Nat.lt_of_not_le weak

theorem operand_stops {depth : Nat} {weakest : Precedence} {expression : Expr}
    {tokens rest : List Token}
    (run : operandWithin depth weakest tokens = .ok (expression, rest)) :
    upcomingLevel rest < weakest.level := by
  cases depth with
  | zero => cases run
  | succ depth =>
      rw [operandWithin] at run
      obtain ⟨left, middle, _, later⟩ := bind_eq_ok.mp run
      exact operators_stops later

/-- An expression without an operator on its right. -/
def IsSimple (tokens : List Token) (expression : Expr) : Prop :=
  IsExpr .primary tokens expression ∨
    (IsExpr .unary tokens expression ∧ ∃ operator operand, expression = .unary operator operand)

theorem IsSimple.weaken {level : Precedence} {tokens : List Token} {expression : Expr}
    (derived : IsSimple tokens expression) (weak : level.level ≤ Precedence.unary.level) :
    IsExpr level tokens expression := by
  rcases derived with primary | ⟨unary, _⟩
  · exact primary.weaken (Nat.le_trans weak (by decide))
  · exact unary.weaken weak

/-- Within a depth, the parsers of expressions fit the grammar. -/
structure FitsExprs (depth : Nat) : Prop where
  operand : ∀ weakest, IsOperandLevel weakest → Fits (operandWithin depth weakest) (IsExpr weakest)
  operators : ∀ {weakest level : Precedence} {left : Expr} {before tokens : List Token},
    IsOperandLevel weakest → IsExpr level before left → weakest.level ≤ level.level →
    upcomingLevel tokens ≤ level.level →
    FitsAt (operatorsWithin depth weakest left)
      (fun used expression => IsExpr weakest (before ++ used) expression) tokens
  primary : Fits (primaryWithin depth) IsSimple
  primary_stops : ∀ {tokens rest : List Token} {operator : Token} {operand : Expr},
    primaryWithin depth tokens = .ok (.unary operator operand, rest) →
    upcomingLevel rest < Precedence.unary.level
  operator : ∀ {level : Precedence} {left : Expr} {before tokens : List Token},
    IsExpr level before left → 1 ≤ upcomingLevel tokens → upcomingLevel tokens ≤ level.level →
    FitsAt (operatorWithin depth left)
      (fun used expression =>
        IsExpr (Precedence.ofOperator (upcoming tokens)) (before ++ used) expression) tokens
  operator_stops : ∀ {left expression : Expr} {tokens rest : List Token},
    1 ≤ upcomingLevel tokens → operatorWithin depth left tokens = .ok (expression, rest) →
    upcomingLevel rest ≤ upcomingLevel tokens
  arguments : Fits (argumentsWithin depth) AreSomeArguments

theorem productive_areSomeArguments : Productive AreSomeArguments :=
  ⟨[someInt], _, .cons (by decide) .nil, .one (isExpr_someInt _)⟩

theorem productive_isSimple : Productive IsSimple :=
  ⟨[someInt], _, .cons (by decide) .nil, .inl (isExpr_someInt _)⟩

theorem fitsExprs_zero : FitsExprs 0 where
  operand weakest _ := .failHere .tooDeep (productive_isExpr weakest)
  operators _ _ _ _ := .tooDeep
  primary := .failHere .tooDeep productive_isSimple
  primary_stops := nofun
  operator _ _ _ := .tooDeep
  operator_stops _ := nofun
  arguments := .failHere .tooDeep productive_areSomeArguments

namespace FitsExprs

variable {depth : Nat}

theorem operand_succ (within : FitsExprs depth) {weakest : Precedence}
    (isLevel : IsOperandLevel weakest) :
    Fits (operandWithin (depth + 1) weakest) (IsExpr weakest) := by
  refine ⟨fun tokens => ?_, productive_isExpr weakest⟩
  -- What the operators may do depends on the tokens of the left operand.
  have goesOn : ∀ left before rest, primaryWithin depth tokens = .ok (left, rest) →
      tokens = before ++ rest → IsSimple before left →
      FitsAt (operatorsWithin depth weakest left)
        (fun used expression => IsExpr weakest (before ++ used) expression) rest := by
    rintro left before rest run - (primary | ⟨unary, operator, operand, rfl⟩)
    · refine within.operators isLevel primary (Nat.le_trans isLevel.2 (by decide)) ?_
      exact Nat.le_trans (ofOperator_le_call _) (by decide)
    · exact within.operators isLevel unary isLevel.2 (Nat.le_of_lt (within.primary_stops run))
  have first := within.primary.at_ tokens
  rw [operandWithin]
  constructor
  · intro expression last run
    obtain ⟨left, rest, leftRun, restRun⟩ := bind_eq_ok.mp run
    obtain ⟨before, split, derived⟩ := first.sound left rest leftRun
    obtain ⟨used, split', whole⟩ :=
      (goesOn left before rest leftRun split derived).sound expression last restRun
    exact ⟨before ++ used, by rw [split, split', List.append_assoc], whole⟩
  · intro fault run deep
    rcases bind_eq_error.mp run with early | ⟨left, rest, leftRun, late⟩
    · obtain ⟨more, expression, plain, derived⟩ := first.finish fault early deep
      exact ⟨more, expression, plain, derived.weaken isLevel.2⟩
    · obtain ⟨before, split, derived⟩ := first.sound left rest leftRun
      obtain ⟨more, expression, plain, whole⟩ :=
        (goesOn left before rest leftRun split derived).finish fault late deep
      exact ⟨more, expression, plain, by rwa [split, List.append_assoc]⟩

theorem operators_succ (within : FitsExprs depth) {weakest level : Precedence} {left : Expr}
    {before tokens : List Token} (isLevel : IsOperandLevel weakest)
    (derived : IsExpr level before left) (weak : weakest.level ≤ level.level)
    (reaches : upcomingLevel tokens ≤ level.level) :
    FitsAt (operatorsWithin (depth + 1) weakest left)
      (fun used expression => IsExpr weakest (before ++ used) expression) tokens := by
  have unfolded : operatorsWithin (depth + 1) weakest left tokens =
      (if weakest.level ≤ upcomingLevel tokens then
        (do
          let larger ← operatorWithin depth left
          operatorsWithin depth weakest larger : Parser Expr)
      else pure left) tokens := by
    rw [operatorsWithin, peek_bind]
    rfl
  by_cases binds : weakest.level ≤ upcomingLevel tokens
  · rw [if_pos binds] at unfolded
    have positive : 1 ≤ upcomingLevel tokens := Nat.le_trans isLevel.1 binds
    have first := within.operator derived positive reaches
    have goesOn : ∀ larger used rest, operatorWithin depth left tokens = .ok (larger, rest) →
        IsExpr (Precedence.ofOperator (upcoming tokens)) (before ++ used) larger →
        FitsAt (operatorsWithin depth weakest larger)
          (fun later expression => IsExpr weakest (before ++ used ++ later) expression) rest :=
      fun larger used rest run whole =>
        within.operators isLevel whole binds (within.operator_stops positive run)
    constructor
    · intro expression last run
      obtain ⟨larger, rest, largerRun, restRun⟩ := bind_eq_ok.mp (unfolded ▸ run)
      obtain ⟨used, split, whole⟩ := first.sound larger rest largerRun
      obtain ⟨later, split', all⟩ :=
        (goesOn larger used rest largerRun whole).sound expression last restRun
      exact ⟨used ++ later, by rw [split, split', List.append_assoc],
        by rwa [← List.append_assoc]⟩
    · intro fault run deep
      rcases bind_eq_error.mp (unfolded ▸ run) with early | ⟨larger, rest, largerRun, late⟩
      · obtain ⟨more, expression, plain, whole⟩ := first.finish fault early deep
        exact ⟨more, expression, plain, whole.weaken binds⟩
      · obtain ⟨used, split, whole⟩ := first.sound larger rest largerRun
        obtain ⟨more, expression, plain, all⟩ :=
          (goesOn larger used rest largerRun whole).finish fault late deep
        refine ⟨more, expression, plain, ?_⟩
        rwa [split, List.append_assoc, ← List.append_assoc]
  · rw [if_neg binds] at unfolded
    constructor
    · intro expression last run
      rw [unfolded] at run
      cases run
      exact ⟨[], rfl, by simpa using derived.weaken weak⟩
    · intro fault run
      rw [unfolded] at run
      cases run

theorem primary_succ (within : FitsExprs depth) : Fits (primaryWithin (depth + 1)) IsSimple := by
  refine ⟨fun tokens => ?_, productive_isSimple⟩
  cases tokens with
  | nil =>
      refine ⟨?_, fun fault run _ => productive_isSimple⟩
      intro expression rest run
      rw [primaryWithin] at run
      cases run
  | cons token rest =>
      by_cases listed : token.kind ∈ literalKinds
      · cases found : literal token with
        | error error =>
            obtain ⟨fault, offending⟩ := error
            cases (literal_eq_error found).1
            exact .of_error (by rw [primaryWithin_literal listed, found]; rfl)
        | ok expression =>
            obtain ⟨value, spells, rfl⟩ := (literal_eq_ok listed).mp found
            refine .of_ok (by rw [primaryWithin_literal listed, found]; rfl)
              (.inl (.literal spells))
      by_cases isName : token.kind = .identifier
      · exact .of_ok (primaryWithin_variable isName) (.inl (.variable isName))
      by_cases isOpening : token.kind = .leftParen
      · have group := (within.operand .assignment ⟨by decide, by decide⟩).bind fun inner =>
          (fits_take .rightParen "')' after expression" (by decide)).bind fun closing =>
            Fits.pure (Expr.group token inner closing)
        refine (group.at_ rest).behind (primaryWithin_group isOpening) ?_
        rintro used expression
          ⟨first, second, inner, rfl, derived, third, fourth, closing, rfl,
            ⟨rfl, isClosing⟩, rfl, rfl⟩
        exact .inl (.group isOpening isClosing derived)
      by_cases isOperator : token.kind = .minus ∨ token.kind = .bang
      · have unary := (within.operand .unary ⟨by decide, by decide⟩).bind fun operand =>
          Fits.pure (Expr.unary token operand)
        refine (unary.at_ rest).behind (primaryWithin_unary isOperator) ?_
        rintro used expression ⟨first, second, operand, rfl, derived, rfl, rfl⟩
        rw [List.append_nil]
        exact .inr ⟨.unary isOperator derived, token, operand, rfl⟩
      · exact .of_error (primaryWithin_other listed isName isOpening isOperator)

theorem primary_stops_succ {tokens rest : List Token} {operator : Token} {operand : Expr}
    (run : primaryWithin (depth + 1) tokens = .ok (.unary operator operand, rest)) :
    upcomingLevel rest < Precedence.unary.level := by
  cases tokens with
  | nil =>
      rw [primaryWithin] at run
      cases run
  | cons token others =>
      by_cases listed : token.kind ∈ literalKinds
      · rw [primaryWithin_literal listed] at run
        cases found : literal token with
        | error error =>
            rw [found] at run
            cases run
        | ok expression =>
            obtain ⟨value, spells, rfl⟩ := (literal_eq_ok listed).mp found
            rw [found] at run
            cases run
      by_cases isName : token.kind = .identifier
      · rw [primaryWithin_variable isName] at run
        cases run
      by_cases isOpening : token.kind = .leftParen
      · rw [primaryWithin_group isOpening] at run
        obtain ⟨inner, middle, _, later⟩ := bind_eq_ok.mp run
        obtain ⟨closing, last, _, ending⟩ := bind_eq_ok.mp later
        cases ending
      by_cases isOperator : token.kind = .minus ∨ token.kind = .bang
      · rw [primaryWithin_unary isOperator] at run
        obtain ⟨value, middle, valueRun, ending⟩ := bind_eq_ok.mp run
        cases ending
        exact operand_stops valueRun
      · rw [primaryWithin_other listed isName isOpening isOperator] at run
        cases run

theorem operator_succ (within : FitsExprs depth) {level : Precedence} {left : Expr}
    {before tokens : List Token} (derived : IsExpr level before left)
    (binds : 1 ≤ upcomingLevel tokens) (reaches : upcomingLevel tokens ≤ level.level) :
    FitsAt (operatorWithin (depth + 1) left)
      (fun used expression =>
        IsExpr (Precedence.ofOperator (upcoming tokens)) (before ++ used) expression) tokens := by
  cases tokens with
  | nil => exact absurd binds (by decide)
  | cons operator rest =>
      change 1 ≤ (Precedence.ofOperator operator.kind).level at binds
      change (Precedence.ofOperator operator.kind).level ≤ level.level at reaches
      change FitsAt _ (fun used expression =>
        IsExpr (Precedence.ofOperator operator.kind) (before ++ used) expression) _
      rcases operator_cases binds with assigns | member | calls | member
      · by_cases isName : ∃ target, left = .variable target
        · obtain ⟨target, rfl⟩ := isName
          obtain ⟨rfl, isName⟩ := derived.of_variable target rfl
          have value := (within.operand .assignment ⟨by decide, by decide⟩).bind fun value =>
            Fits.pure (Expr.assignment target operator value)
          refine (value.at_ rest).behind (operatorWithin_assignment assigns) ?_
          rintro used expression ⟨first, second, assigned, rfl, whole, rfl, rfl⟩
          rw [ofOperator_of_isAssignment assigns, List.append_nil]
          exact .assignment isName assigns whole
        · exact .of_error (operatorWithin_noTarget assigns (not_exists.mp isName))
      · have right := (within.operand _ (isOperandLevel_tighter (.inr member))).bind fun right =>
          Fits.pure (Expr.logical left operator right)
        refine (right.at_ rest).behind (operatorWithin_logical member) ?_
        rintro used expression ⟨first, second, operand, rfl, whole, rfl, rfl⟩
        rw [List.append_nil]
        exact .logical member (derived.weaken reaches) whole
      · by_cases isName : ∃ callee, left = .variable callee
        · obtain ⟨callee, rfl⟩ := isName
          obtain ⟨rfl, isName⟩ := derived.of_variable callee rfl
          have arguments : Fits (argumentList depth) AreArguments := by
            refine .peek fun kind => .ite ?_ (within.arguments.mono fun _ _ => .some)
            refine (Fits.pure []).mono ?_
            rintro used value ⟨rfl, rfl⟩
            exact .none
          have whole := arguments.bind fun arguments =>
            (fits_take .rightParen "')' after arguments" (by decide)).bind fun closing =>
              Fits.pure (Expr.call callee arguments closing)
          refine (whole.at_ rest).behind (operatorWithin_call calls) ?_
          rintro used expression
            ⟨first, second, given, rfl, isGiven, third, fourth, closing, rfl,
              ⟨rfl, isClosing⟩, rfl, rfl⟩
          rw [calls]
          exact .call isName calls isClosing isGiven
        · exact .of_error (operatorWithin_noCallee calls (not_exists.mp isName))
      · have right := (within.operand _ (isOperandLevel_tighter (.inl member))).bind fun right =>
          Fits.pure (Expr.binary left operator right)
        refine (right.at_ rest).behind (operatorWithin_binary member) ?_
        rintro used expression ⟨first, second, operand, rfl, whole, rfl, rfl⟩
        rw [List.append_nil]
        exact .binary member (derived.weaken reaches) whole

theorem operator_stops_succ {left expression : Expr} {tokens rest : List Token}
    (binds : 1 ≤ upcomingLevel tokens)
    (run : operatorWithin (depth + 1) left tokens = .ok (expression, rest)) :
    upcomingLevel rest ≤ upcomingLevel tokens := by
  cases tokens with
  | nil => exact absurd binds (by decide)
  | cons operator others =>
      change 1 ≤ (Precedence.ofOperator operator.kind).level at binds
      change upcomingLevel rest ≤ (Precedence.ofOperator operator.kind).level
      -- A right operand stops at the operators of the level of its own operator.
      have beside :
        ∀ {make : Expr → Expr}, IsOperandLevel (Precedence.ofOperator operator.kind).tighter →
          (do
            let right ← operandWithin depth (Precedence.ofOperator operator.kind).tighter
            return make right : Parser Expr) others = .ok (expression, rest) →
          upcomingLevel rest ≤ (Precedence.ofOperator operator.kind).level := by
        intro make isLevel run
        obtain ⟨right, middle, rightRun, ending⟩ := bind_eq_ok.mp run
        cases ending
        have stops := operand_stops rightRun
        rw [level_tighter _
          (by rintro same; rw [same] at isLevel; exact absurd isLevel.2 (by decide))]
          at stops
        exact Nat.le_of_lt_succ stops
      rcases operator_cases binds with assigns | member | calls | member
      · by_cases isName : ∃ target, left = .variable target
        · obtain ⟨target, rfl⟩ := isName
          rw [operatorWithin_assignment assigns] at run
          obtain ⟨value, middle, valueRun, ending⟩ := bind_eq_ok.mp run
          cases ending
          rw [ofOperator_of_isAssignment assigns]
          exact Nat.le_of_lt (operand_stops valueRun)
        · rw [operatorWithin_noTarget assigns (not_exists.mp isName)] at run
          cases run
      · exact beside (isOperandLevel_tighter (.inr member)) (operatorWithin_logical member ▸ run)
      · rw [calls]
        exact ofOperator_le_call _
      · exact beside (isOperandLevel_tighter (.inl member)) (operatorWithin_binary member ▸ run)

theorem arguments_succ (within : FitsExprs depth) :
    Fits (argumentsWithin (depth + 1)) AreSomeArguments := by
  rw [argumentsWithin]
  refine ((within.operand .assignment ⟨by decide, by decide⟩).bind fun argument =>
    Fits.skip (within.arguments.bind fun others => Fits.pure (argument :: others))
      (Fits.pure [argument])).mono ?_
  rintro used arguments ⟨first, second, argument, rfl, derived,
    ⟨comma, rest, rfl, isComma, third, fourth, others, rfl, isOthers, rfl, rfl⟩ | ⟨rfl, rfl⟩⟩
  · rw [List.append_nil]
    exact .more derived isComma isOthers
  · rw [List.append_nil]
    exact .one derived

end FitsExprs

theorem fitsExprs (depth : Nat) : FitsExprs depth := by
  induction depth with
  | zero => exact fitsExprs_zero
  | succ depth within =>
      exact
        { operand := fun _ isLevel => within.operand_succ isLevel
          operators := within.operators_succ
          primary := within.primary_succ
          primary_stops := FitsExprs.primary_stops_succ
          operator := within.operator_succ
          operator_stops := FitsExprs.operator_stops_succ
          arguments := within.arguments_succ }

theorem fits_expression : Fits expression (IsExpr .assignment) :=
  ⟨fun tokens => (((fitsExprs (4 * tokens.length + 4)).operand .assignment
    ⟨by decide, by decide⟩).at_ tokens).congr rfl, productive_isExpr _⟩

end ScriptCompiler.Parser
