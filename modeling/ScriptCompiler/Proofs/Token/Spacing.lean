import ScriptCompiler.Proofs.Token.Strings

/-!
# Tokens with blanks between them

A blank belongs to no token but a string literal, and no string literal begins another one.  So the
longest token that a text begins with stays the longest one before a blank
(`Lexeme.Longest.append_blank`), and the tokens of a text are read again from their lexemes with
single spaces between them (`ScanTarget.tokens_spaced`).
-/

namespace ScriptCompiler

/-- A byte of ASCII in a text is a rune of the text. -/
theorem Bytes.mem_runes {text : Bytes} {byte : UInt8} (ascii : byte < 0x80) (member : byte ∈ text) :
    byte.toNat ∈ runes text := by
  rw [← text_glyphs text, Glyph.text, List.mem_flatMap] at member
  obtain ⟨glyph, isGlyph, inside⟩ := member
  rw [← (regular_of_mem_glyphs isGlyph).rune ascii inside]
  exact List.mem_map_of_mem isGlyph

namespace Lexeme

/-- Whether a byte is a quote or a blank, which only string literals hold. -/
def isForeign (byte : UInt8) : Bool := byte == 0x22 || Gap.isBlank byte.toNat

theorem isForeign_cases {byte : UInt8} (foreign : isForeign byte = true) :
    byte = 0x22 ∨ byte = 0x20 ∨ byte = 0x09 ∨ byte = 0x0D ∨ byte = 0x0A := by
  simp only [isForeign, Gap.isBlank, Bool.or_eq_true, beq_iff_eq, or_assoc] at foreign
  exact foreign.imp_right fun blank => blank.imp UInt8.toNat_inj.mp
    fun blank => blank.imp UInt8.toNat_inj.mp fun blank =>
      blank.imp UInt8.toNat_inj.mp UInt8.toNat_inj.mp

/-- No rune of a number is a quote or a blank. -/
theorem isWordPart_or_of_float {whole fraction exponent : List Rune} (digits : IsDigits whole)
    (isFraction : fraction = [] ∨ IsFraction fraction)
    (isExponent : exponent = [] ∨ IsExponent exponent) {rune : Rune}
    (member : rune ∈ whole ++ (fraction ++ exponent)) :
    isWordPart rune = true ∨ rune = 0x2E ∨ rune = 0x2B ∨ rune = 0x2D := by
  have ofDigits : ∀ {digits : List Rune}, IsDigits digits → rune ∈ digits →
    isWordPart rune = true :=
    fun digits member => isWordPart_of_isDigit (digits.2 rune member)
  simp only [List.mem_append] at member
  rcases member with inside | inside | inside
  · exact .inl (ofDigits digits inside)
  · rcases isFraction with rfl | ⟨numerals, rfl, isDigits⟩
    · cases inside
    · rcases List.mem_cons.mp inside with rfl | inside
      · exact .inr (.inl rfl)
      · exact .inl (ofDigits isDigits inside)
  · rcases isExponent with rfl | ⟨mark, sign, numerals, rfl, isMark, isSign, isDigits⟩
    · cases inside
    · simp only [List.mem_cons, List.mem_append] at inside
      rcases inside with rfl | inside | inside
      · rcases isMark with rfl | rfl <;> exact .inl (by decide)
      · rcases isSign with rfl | rfl | rfl
        · cases inside
        · exact .inr (.inr (.inl (List.mem_singleton.mp inside)))
        · exact .inr (.inr (.inr (List.mem_singleton.mp inside)))
      · exact .inl (ofDigits isDigits inside)

/-- A rune that belongs to no word and no number stands in string literals and in what is spelt with
it. -/
theorem Class.string_or_spelling {kind : TokenKind} {text : Bytes} (isClass : Class kind text)
    {rune : Rune}
    (notPart : ¬ isWordPart rune = true) (notSign : ¬ (rune = 0x2E ∨ rune = 0x2B ∨ rune = 0x2D))
    (member : rune ∈ Bytes.runes text) :
    kind = .string ∨ kind ∈ TokenKind.keywords ++ TokenKind.marks ∧
    text = Bytes.ofString kind.name := by
  cases isClass with
  | keyword reserved => exact .inr ⟨List.mem_append_left _ reserved, rfl⟩
  | identifier isWord =>
      cases spelt : Bytes.runes text with
      | nil => simp [spelt] at member
      | cons first others =>
          rw [spelt] at isWord member
          rcases List.mem_cons.mp member with same | later
          · exact absurd (same ▸ isWordPart_of_isWordStart isWord.1) notPart
          · exact absurd (isWord.2 _ later) notPart
  | int digits => exact absurd (isWordPart_of_isDigit (digits.2 _ member)) notPart
  | float isNumber digits isFraction isExponent =>
      rw [isNumber] at member
      exact ((isWordPart_or_of_float digits isFraction isExponent member).elim notPart notSign).elim
  | string => exact .inl rfl
  | mark isMark => exact .inr ⟨List.mem_append_right _ isMark, rfl⟩

/-- A keyword and a mark are spelt in ASCII and without the bytes of other tokens. -/
theorem byte_of_spelling {kind : TokenKind} (isKind : kind ∈ TokenKind.keywords ++ TokenKind.marks)
    {byte : UInt8} (member : byte ∈ Bytes.ofString kind.name) :
    byte < 0x80 ∧ isForeign byte = false := by
  have all : ((TokenKind.keywords ++ TokenKind.marks).all fun kind =>
      (Bytes.ofString kind.name).all fun byte => byte < 0x80 && !isForeign byte) = true := by
    decide +kernel
  have bytes := List.all_eq_true.mp (List.all_eq_true.mp all kind isKind) byte member
  simpa using bytes

/-- A quote and a blank stand in no token but a string literal. -/
theorem Class.eq_string {kind : TokenKind} {text : Bytes} (isClass : Class kind text) {byte : UInt8}
    (foreign : isForeign byte = true) (member : byte ∈ text) : kind = .string := by
  have cases := isForeign_cases foreign
  have ascii : byte < 0x80 := by rcases cases with rfl | rfl | rfl | rfl | rfl <;> decide
  have notPart : ¬ isWordPart byte.toNat = true := by
    rcases cases with rfl | rfl | rfl | rfl | rfl <;> decide
  have notSign : ¬ (byte.toNat = 0x2E ∨ byte.toNat = 0x2B ∨ byte.toNat = 0x2D) := by
    rcases cases with rfl | rfl | rfl | rfl | rfl <;> decide
  refine (isClass.string_or_spelling notPart notSign (Bytes.mem_runes ascii member)).resolve_right
    ?_
  rintro ⟨isKind, rfl⟩
  rw [(byte_of_spelling isKind member).2] at foreign
  cases foreign

/-- No string literal begins with another token. -/
theorem Class.eq_of_prefix {kind : TokenKind} {text text' : Bytes} (isClass : Class kind text)
    (isString : Class .string text') (begins : text <+: text') : text = text' := by
  obtain ⟨front, rfl, -⟩ := class_string_iff.mp isString
  obtain ⟨lead, more, rfl⟩ := List.exists_cons_of_ne_nil isClass.ne_nil
  obtain rfl := (List.cons_prefix_cons.mp begins).1
  obtain rfl := isClass.eq_string (by decide) List.mem_cons_self
  obtain ⟨rest, same⟩ := begins
  exact eq_of_string isClass isString (same.trans (List.append_nil _).symm)

/-- The longest token stays the longest one before a blank. -/
theorem Longest.append_blank {text lexeme : Bytes} {kind : TokenKind}
    (longest : Longest text kind lexeme) {byte : UInt8} (blank : Gap.isBlank byte.toNat = true)
    (after : Bytes) : Longest (text ++ byte :: after) kind lexeme := by
  refine ⟨longest.isClass, longest.begins.trans (List.prefix_append _ _), ?_⟩
  intro kind' lexeme' isClass begins
  rcases Nat.lt_or_ge text.length lexeme'.length with longer | short
  · -- A longer token holds the blank, so both are string literals.
    have whole : text ++ [byte] <+: lexeme' := by
      refine List.prefix_of_prefix_length_le ⟨after, by simp⟩ begins ?_
      rw [List.length_append]
      exact longer
    have held : byte ∈ lexeme' := whole.subset (by simp)
    obtain rfl := isClass.eq_string (by simp [isForeign, blank]) held
    have inside := (longest.begins.trans (List.prefix_append _ _)).trans whole
    rw [longest.isClass.eq_of_prefix isClass inside]
  · exact longest.longest kind' lexeme' isClass
      (List.prefix_of_prefix_length_le begins (List.prefix_append _ _) short)

theorem Class.ne_eof {kind : TokenKind} {text : Bytes} (isClass : Class kind text) :
    kind ≠ .eof := by
  cases isClass with
  | keyword reserved => exact ne_of_mem_of_not_mem reserved (by decide)
  | mark isMark => exact ne_of_mem_of_not_mem isMark (by decide)
  | identifier | int | float | string => decide

end Lexeme

/-- Whether a gap goes on with a text is seen from a token that the text begins with, unless the
token is a slash. -/
theorem Gap.not_begins_append {lexeme after after' : Bytes} (some : lexeme ≠ [])
    (solid : ¬ Begins (lexeme ++ after)) (blank : ∀ byte ∈ after'.head?,
      isBlank byte.toNat = true) :
    ¬ Begins (lexeme ++ after') := by
  obtain ⟨lead, more, rfl⟩ := List.exists_cons_of_ne_nil some
  have pair : ∀ second, isBlank second.toNat = false → ∀ first, [first, second] <+: lead ::
    more ++ after' →
      [first, second] <+: lead :: more ++ after := by
    intro second notBlank first begins
    cases more with
    | nil =>
        obtain ⟨rest, same⟩ := (List.cons_prefix_cons.mp begins).2
        have head : after'.head? = .some second := by
          change [second] ++ rest = after' at same
          rw [← same]
          rfl
        rw [blank second head] at notBlank
        cases notBlank
    | cons next more =>
        have inside : [first, second] <+: lead :: next :: more :=
          List.prefix_of_prefix_length_le begins (List.prefix_append _ _) (by simp)
        exact inside.trans (List.prefix_append _ _)
  rintro (⟨byte, head, isBlank⟩ | begins | begins)
  · exact solid (.inl ⟨byte, head, isBlank⟩)
  · exact solid (.inr (.inl (pair _ (by decide) _ begins)))
  · exact solid (.inr (.inr (pair _ (by decide) _ begins)))

/-! ### Reading lexemes again -/

theorem Lexes.blank {text : Bytes} {words : List (TokenKind × Bytes)} {whole : Bool} {byte : UInt8}
    (lexes : Lexes text words whole) (blank : Gap.isBlank byte.toNat = true) :
    Lexes (byte :: text) words whole := by
  cases lexes with
  | gap fills lexes => exact .gap (.blank blank fills) lexes

/-- What a text holds is a token, and no gap goes on with it. -/
def Stands (word : TokenKind × Bytes) : Prop :=
  Lexeme.Class word.1 word.2 ∧ ∃ after, ¬ Gap.Begins (word.2 ++ after)

mutual

theorem Lexes.stands {text : Bytes} {words : List (TokenKind × Bytes)} {whole : Bool} :
    Lexes text words whole → ∀ word ∈ words, Stands word
  | .gap _ lexes => lexes.stands

theorem LexesOn.stands {rest : Bytes} {words : List (TokenKind × Bytes)} {whole : Bool} :
    LexesOn rest words whole → ∀ word ∈ words, Stands word
  | .ended | .stuck _ _ _ | .unclosed _ => by simp
  | .token solid longest lexes =>
      List.forall_mem_cons.mpr ⟨⟨longest.isClass, _, solid⟩, lexes.stands⟩

end

/-- The tokens of a text before its end are those of its classes. -/
theorem ScanTarget.class_of_mem (target : ScanTarget) {text : Bytes} {tokens : List Token}
    (reads : target.tokens text = .ok tokens) {token : Token} (member : token ∈ tokens)
    (notEnd : token.kind ≠ .eof) : Lexeme.Class token.kind token.lexeme := by
  obtain ⟨words, whole, lexes, -, found⟩ := target.exists_lexes text
  rw [reads] at found
  cases whole with
  | false => simp [Except.toOption] at found
  | true =>
      have shapes : tokens.map Token.shape = words ++ [(.eof, [])] := by
        simpa [Except.toOption] using found
      have isWord := List.mem_map_of_mem (f := Token.shape) member
      rw [shapes, List.mem_append, List.mem_singleton] at isWord
      rcases isWord with isWord | isEnd
      · exact (lexes.stands _ isWord).1
      · exact absurd (congrArg Prod.fst isEnd) notEnd

/-- Tokens with single spaces between them are read as these tokens. -/
theorem lexes_join {words : List (TokenKind × Bytes)} (stands : ∀ word ∈ words, Stands word) :
    Lexes (Bytes.join [0x20] (words.map Prod.snd)) words true := by
  induction words with
  | nil => exact LexesOn.ended.lexes
  | cons word words ih =>
      obtain ⟨kind, lexeme⟩ := word
      rw [List.forall_mem_cons] at stands
      obtain ⟨⟨isClass, after, solid⟩, others⟩ := stands
      have later := ih others
      cases words with
      | nil =>
          have ends : ¬ Gap.Begins (lexeme ++ []) :=
            Gap.not_begins_append isClass.ne_nil solid (by simp)
          rw [List.append_nil] at ends
          have alone : Bytes.join [0x20] ([(kind, lexeme)].map Prod.snd) = lexeme := by
            simp [Bytes.join, List.intercalate]
          rw [alone]
          exact .single isClass ends
      | cons next words =>
          have joined : Bytes.join [0x20] (((kind, lexeme) :: next :: words).map Prod.snd) =
              lexeme ++ 0x20 :: Bytes.join [0x20] ((next :: words).map Prod.snd) := by
            simp [Bytes.join, List.intercalate]
          rw [joined]
          have blank : Gap.isBlank (0x20 : UInt8).toNat = true := by decide
          exact (LexesOn.token (Gap.not_begins_append isClass.ne_nil solid (by simpa using blank))
            (isClass.longest_self.append_blank blank _) (later.blank blank)).lexes

/-- The lexemes of tokens with single spaces between them, without that of the end of the text. -/
def Token.spaced (tokens : List Token) : Bytes :=
  Bytes.join [0x20] ((tokens.filter fun token => token.kind != .eof).map Token.lexeme)

/-- **Reading again is stable.**  The lexemes of the tokens of a text, with single spaces between
them, are read as the same tokens. -/
theorem ScanTarget.tokens_spaced (target : ScanTarget) {text : Bytes} {tokens : List Token}
    (reads : target.tokens text = .ok tokens) :
    (target.tokens (Token.spaced tokens)).toOption.map (fun tokens => tokens.map Token.shape) =
      some (tokens.map Token.shape) := by
  obtain ⟨words, whole, lexes, -, found⟩ := target.exists_lexes text
  have stands := lexes.stands
  rw [reads] at found
  obtain rfl : whole = true := by
    cases whole with
    | true => rfl
    | false => simp [Except.toOption] at found
  have shapes : tokens.map Token.shape = words ++ [(.eof, [])] := by
    simpa [Except.toOption] using found
  have spaced : Token.spaced tokens = Bytes.join [0x20] (words.map Prod.snd) := by
    have sifted : (tokens.map Token.shape).filter (fun word => word.1 != .eof) = words := by
      rw [shapes, List.filter_append, List.filter_eq_self.mpr fun word member => by
        simpa using (stands word member).1.ne_eof]
      simp
    rw [Token.spaced, ← sifted, List.filter_map, List.map_map]
    rfl
  rw [spaced, target.shapes_of_lexes (lexes_join stands), shapes]
  rfl

/-- Tokens with nothing or a comment between them: a slash before a comment and before a division
with assignment, two equals signs that are none, a number before a name, and a literal that holds a
quote and the mark of a comment. -/
def crowdedText : Bytes := "x/ //y\n/=/**/=1e\"\\\"//\""

theorem tokens_spaced_crowded : ∃ tokens,
    (ScanTarget.mk "test.tss" ⟨"test", "<main>"⟩).tokens crowdedText = .ok tokens ∧
      Token.spaced tokens = "x / /= = 1 e \"\\\"//\"" ∧
      ((ScanTarget.mk "test.tss" ⟨"test", "<main>"⟩).tokens (Token.spaced tokens)).toOption.map
          (fun tokens => tokens.map Token.shape) =
        some (tokens.map Token.shape) := by
  have check : ((ScanTarget.mk "test.tss" ⟨"test", "<main>"⟩).tokens crowdedText).toOption.any
      (fun tokens => Token.spaced tokens == "x / /= = 1 e \"\\\"//\"") = true := by decide +kernel
  cases reads : (ScanTarget.mk "test.tss" ⟨"test", "<main>"⟩).tokens crowdedText with
  | error _ =>
      rw [reads] at check
      cases check
  | ok tokens =>
      rw [reads] at check
      exact ⟨tokens, rfl, by simpa [Except.toOption] using check, ScanTarget.tokens_spaced _ reads⟩

end ScriptCompiler
