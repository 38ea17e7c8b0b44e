import ScriptCompiler.Proofs.Token.Munch
import ScriptCompiler.Syntax.Parser

/-!
# String literals

A string literal is a text of bytes (`Lexeme.class_string_iff`), although it is read by runes: a
backslash escapes one rune, and of its bytes only the first one can be a quote.  A literal ends
where its quote is, whatever follows (`Lexeme.Literal.unique`).  Every text has a literal that is
read as one token and stands for the text (`ScanTarget.tokens_quoted`).
-/

namespace ScriptCompiler

namespace Lexeme

/-! ### Literals as bytes -/

/-- Where a literal ends is determined. -/
theorem Literal.unique {front front' after after' : Bytes} (literal : Literal front)
    (literal' : Literal front') (same : front ++ after = front' ++ after') : front = front' := by
  induction literal generalizing front' with
  | quote =>
      cases literal' with
      | quote => rfl
      | escape _ => simp at same
      | byte notQuote _ _ _ => exact absurd (List.cons.inj same).1.symm notQuote
  | escape _ ih =>
      cases literal' with
      | quote => simp at same
      | escape literal' =>
          simp only [List.cons_append, List.cons.injEq, true_and] at same
          rw [same.1, ih literal' same.2]
      | byte _ _ notEscape _ => exact absurd (List.cons.inj same).1.symm notEscape
  | byte notQuote _ notEscape _ ih =>
      cases literal' with
      | quote => exact absurd (List.cons.inj same).1 notQuote
      | escape _ => exact absurd (List.cons.inj same).1 notEscape
      | byte _ _ _ literal' =>
          simp only [List.cons_append, List.cons.injEq] at same
          rw [same.1, ih literal' same.2]

theorem Literal.append_plain {bytes rest : Bytes}
    (plain : ∀ byte ∈ bytes, byte ≠ 0x22 ∧ byte ≠ 0x0A ∧ byte ≠ 0x5C) (literal : Literal rest) :
    Literal (bytes ++ rest) := by
  induction bytes with
  | nil => exact literal
  | cons byte bytes ih =>
      rw [List.forall_mem_cons] at plain
      exact .byte plain.1.1 plain.1.2.1 plain.1.2.2 (ih plain.2)

/-- A glyph that stands for itself does so in bytes. -/
theorem plain_of_rune {glyph : Glyph} (regular : glyph.Regular) (notQuote : glyph.rune ≠ 0x22)
    (notNewline : glyph.rune ≠ 0x0A) (notEscape : glyph.rune ≠ 0x5C) :
    ∀ byte ∈ glyph.bytes, byte ≠ 0x22 ∧ byte ≠ 0x0A ∧ byte ≠ 0x5C := by
  refine fun byte member => ⟨?_, ?_, ?_⟩ <;> rintro rfl
  · exact notQuote (regular.rune (by decide) member)
  · exact notNewline (regular.rune (by decide) member)
  · exact notEscape (regular.rune (by decide) member)

/-- Behind the first byte of a glyph every byte stands for itself. -/
theorem exists_plain_tail {glyph : Glyph} (regular : glyph.Regular) :
    ∃ lead more, glyph.bytes = lead :: more ∧
      ∀ byte ∈ more, byte ≠ 0x22 ∧ byte ≠ 0x0A ∧ byte ≠ 0x5C := by
  rcases regular with ⟨_, spelt⟩ | ⟨_, nonempty, outside⟩
  · exact ⟨_, [], spelt, by simp⟩
  · obtain ⟨lead, more, spelt⟩ := List.exists_cons_of_ne_nil nonempty
    refine ⟨lead, more, spelt, fun byte member => ?_⟩
    have large := outside byte (by simp [spelt, member])
    refine ⟨?_, ?_, ?_⟩ <;> rintro rfl <;> exact absurd large (by decide)

/-- What stands between the quotes is the same by runes and by bytes. -/
theorem IsQuoted.literal {runes : List Rune} (quoted : IsQuoted runes) {glyphs : List Glyph}
    (regular : ∀ glyph ∈ glyphs, glyph.Regular) (isInside : glyphs.map Glyph.rune = runes)
    {rest : Bytes} (literal : Literal rest) : Literal (Glyph.text glyphs ++ rest) := by
  induction quoted generalizing glyphs with
  | nil =>
      obtain rfl := List.map_eq_nil_iff.mp isInside
      exact literal
  | plain notQuote notEscape notNewline _ ih =>
      obtain ⟨glyph, more, rfl, rfl, isMore⟩ := List.map_eq_cons_iff.mp isInside
      rw [List.forall_mem_cons] at regular
      rw [Glyph.text_cons, List.append_assoc]
      exact (ih regular.2 isMore).append_plain
        (plain_of_rune regular.1 notQuote notNewline notEscape)
  | escape _ ih =>
      obtain ⟨glyph, tail, rfl, isEscape, isTail⟩ := List.map_eq_cons_iff.mp isInside
      obtain ⟨next, more, rfl, -, isMore⟩ := List.map_eq_cons_iff.mp isTail
      simp only [List.forall_mem_cons] at regular
      have spelt : glyph.bytes = [0x5C] := regular.1.ascii (by decide) isEscape
      obtain ⟨lead, others, speltNext, plain⟩ := exists_plain_tail regular.2.1
      rw [Glyph.text_cons, Glyph.text_cons, spelt, speltNext]
      simp only [List.cons_append, List.append_assoc]
      exact ((ih regular.2.2 isMore).append_plain plain).escape

theorem literal_of_class {kind : TokenKind} {text : Bytes} (isClass : Class kind text)
    (isString : kind = .string) : ∃ front, text = 0x22 :: front ∧ Literal front := by
  cases isClass with
  | keyword reserved =>
      subst isString
      exact absurd reserved (by decide)
  | identifier => cases isString
  | int => cases isString
  | float => cases isString
  | @string _ inside isRunes quoted =>
      have regular : ∀ glyph ∈ Bytes.glyphs text, glyph.Regular :=
        fun glyph => Bytes.regular_of_mem_glyphs
      have spelt := Bytes.text_glyphs text
      obtain ⟨opening, rest, isGlyphs, isOpening, isRest⟩ := List.map_eq_cons_iff.mp isRunes
      obtain ⟨body, closing, rfl, isInside, isClosing⟩ := List.map_eq_append_iff.mp isRest
      obtain ⟨quote, none, rfl, isQuote, isNone⟩ := List.map_eq_cons_iff.mp isClosing
      obtain rfl := List.map_eq_nil_iff.mp isNone
      rw [isGlyphs] at regular spelt
      simp only [List.forall_mem_cons, List.forall_mem_append] at regular
      obtain ⟨isMark, plain, isMark', -⟩ := regular
      have opens : opening.bytes = [0x22] := isMark.ascii (by decide) isOpening
      have closes : quote.bytes = [0x22] := isMark'.ascii (by decide) isQuote
      rw [Glyph.text_cons, Glyph.text_append, Glyph.text_cons, Glyph.text_nil, opens, closes]
        at spelt
      exact ⟨_, spelt.symm, quoted.literal plain isInside .quote⟩
  | mark isMark =>
      subst isString
      exact absurd isMark (by decide)

/-- The string literals, by their bytes. -/
theorem class_string_iff {text : Bytes} :
    Class .string text ↔ ∃ front, text = 0x22 :: front ∧ Literal front := by
  refine ⟨fun isClass => literal_of_class isClass rfl, ?_⟩
  rintro ⟨front, rfl, literal⟩
  have legible := Legible.ofText (0x22 :: front)
  rw [Bytes.glyphs_cons_ascii (by decide)] at legible
  have closed : (stringBody (Bytes.glyphs front)).1 = true := by
    by_contra unclosed
    have differs := @stringBody_unclosed (Bytes.glyphs front)
      (fun glyph => Bytes.regular_of_mem_glyphs) (by simpa using unclosed) front [] literal
    rw [Bytes.text_glyphs, List.append_nil] at differs
    exact differs rfl
  have reads : read ⟨(0x22 : UInt8).toNat, [0x22]⟩ (Bytes.glyphs front) =
      (.ok .string, 1 + (stringBody (Bytes.glyphs front)).2) := by
    simp [read, closed, isWordStart, Rune.isLetter, Rune.isDigit]
  have isClass := class_of_read legible reads
  -- What is read is a literal at the beginning of the text, and there is one only.
  obtain ⟨front', same, literal'⟩ := literal_of_class isClass rfl
  have parts := congrArg Glyph.text (List.take_append_drop
    (1 + (stringBody (Bytes.glyphs front)).2)
      (⟨(0x22 : UInt8).toNat, [0x22]⟩ :: Bytes.glyphs front))
  rw [Glyph.text_append, same, Glyph.text_cons, Bytes.text_glyphs, List.singleton_append,
    List.cons_append] at parts
  have whole := (List.cons.inj parts).2
  rw [← List.append_nil front] at whole
  rwa [same, literal'.unique literal whole] at isClass

/-- No string literal begins another one. -/
theorem eq_of_string {text text' after after' : Bytes} (isString : Class .string text)
    (isString' : Class .string text') (same : text ++ after = text' ++ after') : text = text' := by
  obtain ⟨front, rfl, literal⟩ := class_string_iff.mp isString
  obtain ⟨front', rfl, literal'⟩ := class_string_iff.mp isString'
  rw [literal.unique literal' (List.cons.inj same).2]

theorem Literal.ends_quote {front : Bytes} (literal : Literal front) :
    ∃ inside, front = inside ++ [0x22] := by
  induction literal with
  | quote => exact ⟨[], rfl⟩
  | @escape byte _ _ ih =>
      obtain ⟨inside, rfl⟩ := ih
      exact ⟨0x5C :: byte :: inside, rfl⟩
  | @byte byte _ _ _ _ _ ih =>
      obtain ⟨inside, rfl⟩ := ih
      exact ⟨byte :: inside, rfl⟩

theorem Class.ends_quote {kind : TokenKind} {lexeme : Bytes} (isClass : Class kind lexeme)
    (isString : kind = .string) : ∃ inside, lexeme = inside ++ [0x22] := by
  obtain ⟨front, rfl, literal⟩ := literal_of_class isClass isString
  obtain ⟨inside, rfl⟩ := literal.ends_quote
  exact ⟨0x22 :: inside, rfl⟩

/-! ### The literal of a text -/

/-- A byte between quotes. -/
def escaped : UInt8 → Bytes
  | 0x5C => [0x5C, 0x5C]
  | 0x22 => [0x5C, 0x22]
  | 0x0A => [0x5C, 0x6E]
  | 0x0D => [0x5C, 0x72]
  | 0x09 => [0x5C, 0x74]
  | 0x00 => [0x5C, 0x30]
  | byte => [byte]

/-- The string literal that stands for a text. -/
def quoted (content : Bytes) : Bytes := 0x22 :: (content.flatMap escaped ++ [0x22])

theorem Literal.escaped_append {rest : Bytes} (literal : Literal rest) (byte : UInt8) :
    Literal (escaped byte ++ rest) := by
  unfold escaped
  split
  all_goals first
    | exact literal.escape
    | exact .byte ‹_› ‹_› ‹_› literal

theorem literal_quoted (content : Bytes) : Literal (content.flatMap escaped ++ [0x22]) := by
  induction content with
  | nil => exact .quote
  | cons byte content ih =>
      rw [List.flatMap_cons, List.append_assoc]
      exact ih.escaped_append byte

theorem class_quoted (content : Bytes) : Class .string (quoted content) :=
  class_string_iff.mpr ⟨_, rfl, literal_quoted content⟩

theorem Class.longest_self {kind : TokenKind} {text : Bytes} (isClass : Class kind text) :
    Longest text kind text :=
  ⟨isClass, List.prefix_rfl, fun _ _ _ begins => begins.length_le⟩

end Lexeme

/-- A gap may be empty. -/
theorem LexesOn.lexes {rest : Bytes} {words : List (TokenKind × Bytes)} {whole : Bool}
    (lexes : LexesOn rest words whole) : Lexes rest words whole :=
  @Lexes.gap [] rest words whole .nil lexes

/-- A text that is one token, and that no gap begins with, is read as that token. -/
theorem Lexes.single {kind : TokenKind} {text : Bytes} (isClass : Lexeme.Class kind text)
    (solid : ¬ Gap.Begins text) : Lexes text [(kind, text)] true := by
  have reads : LexesOn (text ++ []) [(kind, text)] true := by
    refine .token ?_ ?_ LexesOn.ended.lexes <;> rw [List.append_nil]
    · exact solid
    · exact isClass.longest_self
  rw [List.append_nil] at reads
  exact reads.lexes

theorem unescape_cons {byte : UInt8} (plain : byte ≠ 0x5C) (rest : Bytes) :
    unescape (byte :: rest) = byte :: unescape rest := by
  cases rest with
  | nil => rfl
  | cons next rest => simp [unescape, plain]

theorem unescape_escaped_append (byte : UInt8) (rest : Bytes) :
    unescape (Lexeme.escaped byte ++ rest) = byte :: unescape rest := by
  unfold Lexeme.escaped
  split
  all_goals first
    | rfl
    | exact unescape_cons ‹_› rest

/-- What is escaped is found again. -/
theorem unescape_escaped (content : Bytes) :
    unescape (content.flatMap Lexeme.escaped) = content := by
  induction content with
  | nil => rfl
  | cons byte content ih => rw [List.flatMap_cons, unescape_escaped_append, ih]

theorem unquote_quoted (content : Bytes) : unquote (Lexeme.quoted content) = content := by
  have long : ¬ (Lexeme.quoted content).length < 2 := by simp [Lexeme.quoted]
  rw [unquote, if_neg long, Lexeme.quoted, List.drop_succ_cons, List.drop_zero,
    List.dropLast_concat,
    unescape_escaped]

/-- **String literals round-trip.**  The literal of any text is read as one token, and stands for
the text. -/
theorem ScanTarget.tokens_quoted (target : ScanTarget) (content : Bytes) :
    (target.tokens (Lexeme.quoted content)).toOption.map (fun tokens => tokens.map Token.shape) =
        some [(.string, Lexeme.quoted content), (.eof, [])] ∧
      unquote (Lexeme.quoted content) = content := by
  refine ⟨?_, unquote_quoted content⟩
  have solid : ¬ Gap.Begins (Lexeme.quoted content) := by
    simp [Gap.Begins, Gap.isBlank, Gap.lineMark, Gap.opening, Lexeme.quoted]
  exact target.shapes_of_lexes (.single (Lexeme.class_quoted content) solid)

end ScriptCompiler
