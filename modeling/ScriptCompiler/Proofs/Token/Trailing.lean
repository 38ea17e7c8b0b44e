import ScriptCompiler.Proofs.Text.Composition
import ScriptCompiler.Proofs.Token.Lines

/-!
# Texts that end within a rune

No token holds a lead byte without the bytes that it asks for, unless the token is a string literal,
and then a quote stands behind that byte.  So a text that is read to its end and ends within a rune
ends in a comment to the end of the line.  It is read in the same way with anything else in that
comment (`Lexes.endsInComment`), and so is every readable text, composed, with a newline behind it
before it is composed (`ScanTarget.shapes_composed_newline`).
-/

namespace ScriptCompiler

open Bytes

/-! ### Comments to the end of the line -/

/-- A front that ends in a comment to the end of the line, such that a text is read in a certain way
whatever the comment goes on with. -/
def EndsInComment (reads : Bytes → Prop) (front : Bytes) : Prop :=
  ∃ before comment, front = before ++ Gap.lineMark ++ comment ∧ OneLine comment ∧
    ∀ other, OneLine other → reads (before ++ Gap.lineMark ++ other ++ [0x0A])

/-- A text in front that ends in a byte of ASCII ends before a tail without any. -/
theorem Bytes.exists_front {left right front tail : Bytes} (outside : ∀ byte ∈ tail, 0x80 ≤ byte)
    (ends : ∀ byte ∈ left.getLast?, byte < 0x80) (same : left ++ right = front ++ tail) :
    ∃ front', front = left ++ front' ∧ right = front' ++ tail := by
  rcases List.append_eq_append_iff.mp same with ⟨between, rfl, rfl⟩ | ⟨between, rfl, rfl⟩
  · exact ⟨between, rfl, rfl⟩
  · rcases List.eq_nil_or_concat between with rfl | ⟨others, last, rfl⟩
    · exact ⟨[], by simp, by simp⟩
    · have small := ends last (by simp)
      have large := outside last (by simp)
      exact absurd small (UInt8.not_lt.mpr large)

variable {lead : UInt8} {more : Bytes}

theorem Bytes.Torn.outside_all (torn : Torn lead more) : ∀ byte ∈ lead :: more, 0x80 ≤ byte :=
  List.forall_mem_cons.mpr ⟨UInt8.le_trans (by decide) torn.lead_ge, torn.outside⟩

namespace Gap

theorem Fills.congr {after after' gap : Bytes} (same : after.head? = after'.head?)
    (fills : Fills after gap) : Fills after' gap := by
  induction fills with
  | nil => exact .nil
  | blank blank _ ih => exact .blank blank ih
  | @line comment rest within ends _ ih =>
      refine .line within ?_ ih
      cases rest with
      | nil => exact fun byte head => ends byte (by simpa [same] using head)
      | cons => exact ends
  | block isBody _ ih => exact .block isBody ih

/-- A gap that ends outside ASCII ends in a comment up to the end of the line. -/
theorem Fills.newline_of_outside {after gap front tail : Bytes} (fills : Fills after gap)
    (outside : ∀ byte ∈ tail, 0x80 ≤ byte) (some : tail ≠ []) (split : gap = front ++ tail) :
    ∀ byte ∈ after.head?, byte = 0x0A := by
  induction fills generalizing front with
  | nil => exact absurd (List.append_eq_nil_iff.mp split.symm).2 some
  | @blank byte rest blank _ ih =>
      obtain ⟨front', -, rest⟩ := @exists_front [byte] rest _ _ outside
        (by simpa using byte_ascii blank) split
      exact ih rest
  | @line comment rest within ends _ ih =>
      cases rest with
      | nil => exact ends
      | cons byte rest =>
          obtain rfl := ends byte rfl
          obtain ⟨front', -, same⟩ := @exists_front (lineMark ++ comment ++ [0x0A]) rest _ _ outside
            (by simp) (by simpa using split)
          exact @ih (0x0A :: front') (by rw [same]; rfl)
  | @block body rest _ _ ih =>
      obtain ⟨front', -, same⟩ := @exists_front (opening ++ body ++ closing) rest _ _ outside
        (by simp [closing]) split
      exact ih same

/-- A gap at the end of a text that ends within a rune ends in a comment. -/
theorem Fills.endsInComment {gap front : Bytes} (torn : Torn lead more) (fills : Fills [] gap)
    (split : gap = front ++ lead :: more) : EndsInComment (Fills []) front := by
  have outside := torn.outside_all
  induction fills generalizing front with
  | nil => simp at split
  | @blank byte rest blank _ ih =>
      obtain ⟨front', rfl, same⟩ := @exists_front [byte] rest _ _ outside
        (by simpa using byte_ascii blank) split
      obtain ⟨before, comment, rfl, oneLine, reads⟩ := ih same
      exact ⟨byte :: before, comment, by simp, oneLine,
        fun other within => .blank blank (reads other within)⟩
  | @line comment rest within ends fills ih =>
      cases rest with
      | nil =>
          rw [List.append_nil] at split
          obtain ⟨front', rfl, rfl⟩ := exists_front outside (by simp [lineMark]) split
          refine ⟨[], front', rfl, fun newline => within (List.mem_append_left _ newline), ?_⟩
          exact fun other oneLine => .line oneLine (by simp) (.blank (by decide) .nil)
      | cons byte rest =>
          obtain rfl := ends byte rfl
          obtain ⟨front', rfl, same⟩ :=
            @exists_front (lineMark ++ comment ++ [0x0A]) rest _ _ outside
            (by simp) (by simpa using split)
          obtain ⟨before, last, parts, oneLine, reads⟩ := @ih (0x0A :: front') (by rw [same]; rfl)
          obtain ⟨later, rfl⟩ : ∃ later, before = 0x0A :: later := by
            cases before with
            | nil => simp [lineMark] at parts
            | cons byte later => exact ⟨later, by rw [(List.cons.inj parts).1]⟩
          refine ⟨lineMark ++ comment ++ 0x0A :: later, last, ?_, oneLine, fun other within' => ?_⟩
          · have rest := (List.cons.inj parts).2
            simp [rest]
          · have whole := Fills.line within (by simp) (reads other within')
            simpa using whole
  | @block body rest isBody _ ih =>
      obtain ⟨front', rfl, same⟩ := @exists_front (opening ++ body ++ closing) rest _ _ outside
        (by simp [closing]) split
      obtain ⟨before, comment, rfl, oneLine, reads⟩ := ih same
      refine ⟨opening ++ body ++ closing ++ before, comment, by simp, oneLine,
        fun other within => ?_⟩
      have whole := Fills.block isBody (reads other within)
      simpa using whole

/-- Two bytes decide whether a gap goes on. -/
theorem begins_append {front : Bytes} (two : 2 ≤ front.length) {after after' : Bytes}
    (begins : Begins (front ++ after)) : Begins (front ++ after') := by
  have mark : ∀ mark : Bytes, mark.length = 2 → mark <+: front ++ after →
    mark <+: front ++ after' :=
    fun mark size begins => (List.prefix_of_prefix_length_le begins (List.prefix_append _ _)
      (size ▸ two)).trans (List.prefix_append _ _)
  rcases begins with ⟨byte, head, blank⟩ | begins | begins
  · refine .inl ⟨byte, ?_, blank⟩
    cases front with
    | nil => simp at two
    | cons => exact head
  · exact .inr (.inl (mark _ rfl begins))
  · exact .inr (.inr (mark _ rfl begins))

end Gap

/-! ### Tokens before a comment -/

namespace Lexeme

/-- Two slashes stand in no token but a string literal. -/
theorem Class.eq_string_of_lineMark {kind : TokenKind} {text : Bytes} (isClass : Class kind text)
    (marked : Gap.lineMark <:+: text) : kind = .string := by
  have slash : (0x2F : UInt8).toNat ∈ Bytes.runes text :=
    Bytes.mem_runes (by decide) (marked.subset (by decide))
  have spellings : ∀ kind ∈ TokenKind.keywords ++ TokenKind.marks,
      ¬ Gap.lineMark <:+: Bytes.ofString kind.name := by decide +kernel
  refine (isClass.string_or_spelling (by decide) (by decide) slash).resolve_right ?_
  rintro ⟨isKind, rfl⟩
  exact spellings kind isKind marked

/-- The longest token before a comment is so whatever the comment says. -/
theorem Longest.before_comment {front after lexeme : Bytes} {kind : TokenKind}
    (longest : Longest (front ++ Gap.lineMark ++ after) kind lexeme) (within : lexeme <+: front)
    (after' : Bytes) : Longest (front ++ Gap.lineMark ++ after') kind lexeme := by
  refine ⟨longest.isClass, within.trans (by simp), ?_⟩
  intro kind' lexeme' isClass begins
  rcases Nat.lt_or_ge (front.length + 1) lexeme'.length with longer | short
  · have whole : front ++ Gap.lineMark <+: lexeme' := by
      refine List.prefix_of_prefix_length_le (List.prefix_append _ _) begins ?_
      rw [List.length_append]
      exact longer
    obtain rfl :=
      isClass.eq_string_of_lineMark ((List.suffix_append _ _).isInfix.trans whole.isInfix)
    rw [longest.isClass.eq_of_prefix isClass (within.trans ((List.prefix_append _ _).trans whole))]
  · have first : lexeme' <+: front ++ [0x2F] :=
      List.prefix_of_prefix_length_le begins ⟨0x2F :: after', by simp [Gap.lineMark]⟩
        (by simpa using short)
    exact longest.longest kind' lexeme' isClass
      (first.trans ⟨0x2F :: after, by simp [Gap.lineMark]⟩)

end Lexeme

/-- A lead byte without the bytes that it asks for is ill-formed. -/
theorem Bytes.Torn.first_eq (torn : Torn lead more) :
    Glyph.first lead more = Glyph.illFormed lead := by
  have large : ∀ bound : UInt8, bound ≤ 0xF0 → ¬ lead < bound := fun bound below =>
    UInt8.not_lt.mpr (UInt8.le_trans below torn.lead_ge)
  rw [Glyph.first.eq_def, if_neg (large _ (by decide)), if_neg (large _ (by decide)),
    if_neg (large _ (by decide)), if_neg (large _ (by decide))]
  cases more with
  | nil => split <;> rfl
  | cons second rest =>
      have apart : Glyph.isSecond lead second = false := by
        rw [Bool.eq_false_iff]
        intro continues
        have begins := torn.begins second rfl
        rw [Glyph.isContinuation_of_isSecond continues] at begins
        cases begins
      rcases rest with _ | ⟨third, _ | ⟨fourth, rest⟩⟩ <;> simp [apart]

/-- No token ends in a lead byte and less than it asks for. -/
theorem Lexeme.Class.not_torn {kind : TokenKind} {front : Bytes} (torn : Torn lead more) :
    ¬ Class kind (front ++ lead :: more) := by
  intro isClass
  have begins : Glyph.isContinuation lead = false := by
    have large := torn.lead_ge
    simp only [Glyph.isContinuation, Bool.and_eq_false_iff, decide_eq_false_iff_not, UInt8.not_le]
    exact .inr (UInt8.lt_of_lt_of_le (by decide) large)
  have broken : Rune.replacement ∈ Bytes.runes (front ++ lead :: more) := by
    rw [Bytes.runes, Bytes.glyphs_append_cons _ _ begins, Bytes.glyphs, Bytes.glyphs,
      Bytes.glyphsAfter,
      torn.first_eq]
    simp [Glyph.illFormed]
  have outside := torn.outside_all
  have inside : lead ∈ front ++ lead :: more := by simp
  rcases isClass.string_or_spelling (by decide +kernel) (by decide) broken with rfl | ⟨isKind, same⟩
  · obtain ⟨content, same⟩ := isClass.ends_quote rfl
    obtain ⟨_, -, last⟩ := @exists_front (content ++ [0x22]) [] _ _ outside (by simp)
      (by simpa using same.symm)
    simp at last
  · have ascii := (byte_of_spelling isKind (same ▸ inside)).1
    exact UInt8.not_lt.mpr (outside lead List.mem_cons_self) ascii

/-! ### Readable texts that end within a rune -/

theorem Bytes.Torn.of_append {after : Bytes} (torn : Torn lead (more ++ after)) : Torn lead more :=
  ⟨torn.lead_ge, fun byte member => torn.outside byte (List.mem_append_left _ member),
    fun byte head =>
    torn.begins byte (by cases more with
      | nil => cases head
      | cons => exact head)⟩

/-- What stands before a tail that a token does not end with is the token and something behind
it. -/
theorem Lexeme.Class.exists_front {kind : TokenKind} {lexeme after front : Bytes}
    (isClass : Class kind lexeme) (torn : Torn lead more)
    (split : lexeme ++ after = front ++ lead :: more) :
    ∃ front', front = lexeme ++ front' ∧ after = front' ++ lead :: more := by
  rcases List.append_eq_append_iff.mp split with ⟨between, rfl, rfl⟩ | ⟨between, rfl, same⟩
  · exact ⟨between, rfl, rfl⟩
  · cases between with
    | nil => exact ⟨[], by simp, same.symm⟩
    | cons byte between =>
        obtain ⟨rfl, rfl⟩ := List.cons.inj same
        exact absurd isClass (not_torn torn.of_append)

mutual

/-- A text that is read to its end and ends within a rune ends in a comment. -/
theorem Lexes.endsInComment {text front : Bytes} {words : List (TokenKind × Bytes)}
    (torn : Torn lead more) :
    Lexes text words true → text = front ++ lead :: more →
      EndsInComment (fun text => Lexes text words true) front
  | @Lexes.gap gap rest _ _ fills lexes, split => by
      have behind : ∀ front', front = gap ++ front' → rest = front' ++ lead :: more →
          EndsInComment (fun text => Lexes text words true) front := by
        rintro front' rfl same
        obtain ⟨before, comment, rfl, oneLine, reads⟩ := lexes.endsInComment torn same
        refine ⟨gap ++ before, comment, by simp, oneLine, fun other within => ?_⟩
        have head : rest.head? = (before ++ Gap.lineMark ++ other ++ [0x0A]).head? := by
          rw [same]
          cases before <;> simp [Gap.lineMark]
        have whole := Lexes.gap (fills.congr head) (reads other within)
        simpa using whole
      rcases List.append_eq_append_iff.mp split with ⟨between, same, same'⟩ | ⟨between, same, same'⟩
      · exact behind between same same'
      · rcases between with _ | ⟨byte, between⟩
        · exact behind [] (by simpa using same.symm) same'.symm
        · cases rest with
          | nil =>
              obtain ⟨rfl, -⟩ := lexes.unique .ended
              rw [List.append_nil] at same'
              obtain ⟨before, comment, parts, oneLine, reads⟩ :=
                fills.endsInComment torn (same' ▸ same)
              refine ⟨before, comment, parts, oneLine, fun other within => ?_⟩
              have whole := Lexes.gap (reads other within) .ended
              rwa [List.append_nil] at whole
          | cons next rest =>
              -- The gap would end within the tail, and so before a newline there.
              have outside := torn.outside_all
              rw [same'] at outside
              rw [List.forall_mem_append] at outside
              have newline :=
                fills.newline_of_outside outside.1 (List.cons_ne_nil _ _) same next rfl
              exact absurd (outside.2 next List.mem_cons_self) (newline ▸ by decide)
termination_by (words.length, 1)

theorem LexesOn.endsInComment {rest front : Bytes} {words : List (TokenKind × Bytes)}
    (torn : Torn lead more) :
    LexesOn rest words true → rest = front ++ lead :: more →
      EndsInComment (fun text => LexesOn text words true) front
  | .ended, split => by simp at split
  | @LexesOn.token lexeme after kind _ _ solid longest lexes, split => by
      obtain ⟨front', rfl, rest⟩ := longest.isClass.exists_front torn split
      obtain ⟨before, comment, rfl, oneLine, reads⟩ := lexes.endsInComment torn rest
      refine ⟨lexeme ++ before, comment, by simp, oneLine, fun other within => ?_⟩
      have parts : lexeme ++ after =
          lexeme ++ before ++ Gap.lineMark ++ (comment ++ lead :: more) := by simp [rest]
      have parts' : lexeme ++ (before ++ Gap.lineMark ++ other ++ [0x0A]) =
          lexeme ++ before ++ Gap.lineMark ++ (other ++ [0x0A]) := by simp
      rw [parts] at solid longest
      have two : 2 ≤ (lexeme ++ before ++ Gap.lineMark).length := by
        rw [List.length_append]
        exact Nat.le_add_left _ _
      have whole := LexesOn.token
        (parts' ▸ fun begins => solid (Gap.begins_append two begins))
        (parts' ▸ longest.before_comment (List.prefix_append _ _) _) (reads other within)
      simpa only [List.append_assoc] using whole
termination_by (words.length, 0)

end

/-- **A newline behind a text leaves its tokens as they are.**  A text that is read, once composed,
to certain tokens is read to the same ones with a newline behind it before it is composed. -/
theorem ScanTarget.shapes_composed_newline (target : ScanTarget) {text : Bytes}
    {tokens : List Token} (reads : target.tokens (composed text) = .ok tokens) :
    ∃ others, target.tokens (composed (text ++ [0x0A])) = .ok others ∧
      others.map Token.shape = tokens.map Token.shape := by
  rcases composed_newline text with same | ⟨front, lead, more, tail, torn, oneLine, split, same⟩
  · obtain ⟨words, rfl, -, found⟩ := target.tokens_lines reads []
    have ends : target.tokens [] = .ok [⟨.eof, [], ⟨target.file, 1, 1, 0⟩⟩] := rfl
    rw [same, found, ends]
    exact ⟨_, rfl, by simp [Token.shape, Token.moved]⟩
  · obtain ⟨words, whole, lexes, -, found⟩ := target.exists_lexes (composed text)
    rw [reads] at found
    cases whole with
    | false => simp [Except.toOption] at found
    | true =>
        rw [split] at lexes
        obtain ⟨before, comment, rfl, within, behind⟩ := lexes.endsInComment torn rfl
        have later := behind (comment ++ tail) (oneLine_append.mpr ⟨within, oneLine⟩)
        have found' := target.shapes_of_lexes later
        simp only [← List.append_assoc] at found'
        rw [← same] at found'
        cases reads' : target.tokens (composed (text ++ [0x0A])) with
        | error diagnostic => simp [reads', Except.toOption] at found'
        | ok others =>
            refine ⟨others, rfl, ?_⟩
            rw [reads'] at found'
            exact Option.some.inj (found'.trans found.symm)

end ScriptCompiler
