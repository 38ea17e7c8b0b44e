import ScriptCompiler.Proofs.Token.Spacing

/-!
# Identifiers by themselves

Whether a text is an identifier can be asked of the text as a whole, and it can be found out by
scanning it.  The two agree: a text is an identifier exactly if its tokens are one identifier that
is the text and the end (`isIdentifier_iff_scanned`).
-/

namespace ScriptCompiler

theorem isIdentifier_iff {text : Bytes} : isIdentifier text = true ↔
    TokenKind.ofWord text = .identifier ∧ Lexeme.IsWord (Bytes.runes text) := by
  rw [isIdentifier, Bool.and_eq_true, beq_iff_eq]
  cases Bytes.runes text <;> simp [Lexeme.IsWord]

/-- The test for identifiers decides the class of identifiers. -/
theorem isIdentifier_iff_class {text : Bytes} :
    isIdentifier text = true ↔ Lexeme.Class .identifier text := by
  rw [isIdentifier_iff]
  constructor
  · rintro ⟨isKind, isWord⟩
    exact isKind ▸ Lexeme.class_ofWord isWord
  · intro isClass
    cases isClass with
    | identifier isWord free => exact ⟨Lexeme.ofWord_identifier free, isWord⟩
    | keyword reserved => exact absurd reserved (by decide)
    | mark isMark => exact absurd isMark (by decide)

/-- No gap begins with what a word begins with. -/
theorem Lexeme.IsWord.not_begins {text : Bytes} (isWord : IsWord (Bytes.runes text)) :
    ¬ Gap.Begins text := by
  have starts : ∀ byte rest, text = byte :: rest → byte < 0x80 → isWordStart byte.toNat = true := by
    rintro byte rest rfl ascii
    rw [Bytes.runes, Bytes.glyphs_cons_ascii ascii] at isWord
    exact isWord.1
  rintro (⟨byte, head, blank⟩ | ⟨rest, rfl⟩ | ⟨rest, rfl⟩)
  · obtain ⟨rest, split⟩ := List.head?_eq_some_iff.mp head
    have foreign : isForeign byte = true := by rw [isForeign, blank, Bool.or_true]
    obtain rfl | rfl | rfl | rfl | rfl := isForeign_cases foreign
    all_goals exact absurd (starts _ rest split (by decide)) (by decide)
  · exact absurd (starts 0x2F _ rfl (by decide)) (by decide)
  · exact absurd (starts 0x2F _ rfl (by decide)) (by decide)

/-- **Identifiers are what scans as one.**  A text passes the test for identifiers exactly if the
scanner reads it as one identifier, the whole text, and then the end. -/
theorem isIdentifier_iff_scanned (target : ScanTarget) (text : Bytes) :
    isIdentifier text = true ↔ ∃ word ending, target.tokens text = .ok [word, ending] ∧
      word.kind = .identifier ∧ word.lexeme = text ∧ ending.kind = .eof := by
  constructor
  · intro isName
    have solid := (isIdentifier_iff.mp isName).2.not_begins
    have shapes := target.shapes_of_lexes (.single (isIdentifier_iff_class.mp isName) solid)
    cases scanned : target.tokens text with
    | error diagnostic =>
        rw [scanned] at shapes
        cases shapes
    | ok tokens =>
        rw [scanned] at shapes
        have same : tokens.map Token.shape = [(.identifier, text), (.eof, [])] :=
          Option.some.inj shapes
        obtain ⟨word, others, rfl, isWord, rest⟩ := List.map_eq_cons_iff.mp same
        obtain ⟨ending, none, rfl, isEnd, last⟩ := List.map_eq_cons_iff.mp rest
        obtain rfl := List.map_eq_nil_iff.mp last
        exact ⟨word, ending, rfl, congrArg Prod.fst isWord, congrArg Prod.snd isWord,
          congrArg Prod.fst isEnd⟩
  · rintro ⟨word, ending, scanned, isKind, rfl, -⟩
    have isClass := target.class_of_mem scanned List.mem_cons_self (by simp [isKind])
    exact isIdentifier_iff_class.mpr (isKind ▸ isClass)

end ScriptCompiler
