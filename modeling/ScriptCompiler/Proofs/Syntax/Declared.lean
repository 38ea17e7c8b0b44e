import ScriptCompiler.Compilation.Unit
import ScriptCompiler.Proofs.Syntax.Acceptance

/-!
# The names that a program declares

The name of a function or a parameter is the lexeme of an identifier among the tokens that the
program was read from, and an identifier is a run of letters, underscores and digits.  So no such
name has a point in it (`SourceFile.point_notMem`), which leaves the point to names that are made
up.
-/

namespace ScriptCompiler

/-! ### Identifiers among the tokens of a text -/

section Scanning

theorem Glyph.isContinuation_ge {byte : UInt8} (holds : isContinuation byte = true) :
    0x80 ≤ byte := by
  simp only [isContinuation, Bool.and_eq_true, decide_eq_true_eq] at holds
  exact holds.1

theorem Glyph.isSecond_ge {lead byte : UInt8} (holds : isSecond lead byte = true) :
    0x80 ≤ byte := by
  unfold isSecond at holds
  grind -ring -linarith [isContinuation]

/-- A byte of ASCII spells itself wherever it stands. -/
theorem Glyph.rune_first {lead byte : UInt8} {rest : Bytes} (ascii : byte < 0x80) :
    byte ∈ (Glyph.first lead rest).bytes → (Glyph.first lead rest).rune = byte.toNat := by
  have continues : ∀ second : UInt8, isContinuation second = true → 0x80 ≤ second :=
    fun _ => isContinuation_ge
  have follows : ∀ second : UInt8, isSecond lead second = true → 0x80 ≤ second :=
    fun _ => isSecond_ge
  fun_cases Glyph.first lead rest <;> grind -ring -linarith [illFormed]

theorem Bytes.rune_of_mem_glyphsAfter {skipped : Nat} {text : Bytes} {glyph : Glyph}
    (member : glyph ∈ glyphsAfter skipped text) {byte : UInt8} (ascii : byte < 0x80)
    (within : byte ∈ glyph.bytes) : glyph.rune = byte.toNat := by
  induction text generalizing skipped with
  | nil => simp [glyphsAfter] at member
  | cons lead rest ih =>
      cases skipped with
      | succ skipped => exact ih member
      | zero =>
          rw [glyphsAfter, List.mem_cons] at member
          rcases member with rfl | later
          · exact Glyph.rune_first ascii within
          · exact ih later

/-- Glyphs in which a byte of ASCII spells itself. -/
def Faithful (glyphs : List Glyph) : Prop :=
  ∀ glyph ∈ glyphs, ∀ byte ∈ glyph.bytes, byte < 0x80 → glyph.rune = byte.toNat

theorem Cursor.rest_step (cursor : Cursor) : cursor.step.rest = cursor.rest.drop 1 := by
  unfold step
  split
  · rename_i empty
    rw [empty, List.drop_nil]
  · rename_i glyph rest split_
    rw [split_]
    split <;> rfl

theorem Cursor.rest_advance (size : Nat) (cursor : Cursor) :
    (cursor.advance size).rest = cursor.rest.drop size := by
  induction size generalizing cursor with
  | zero => rfl
  | succ size ih => rw [advance, ih, rest_step, List.drop_drop, Nat.add_comm]

theorem Cursor.advance_add {cursor : Cursor} (first second : Nat) :
    cursor.advance (first + second) = (cursor.advance first).advance second := by
  induction first generalizing cursor with
  | zero => rw [Nat.zero_add, advance]
  | succ first ih => rw [Nat.succ_add, advance, advance, ih]

namespace Lexeme

theorem ofMarks?_ne (first second : Rune) : ofMarks? first second ≠ some .identifier := by
  unfold ofMarks?
  split <;> simp

theorem ofMark?_ne (rune : Rune) : ofMark? rune ≠ some .identifier := by
  unfold ofMark?
  split <;> simp

theorem mem_take_count {holds : Rune → Bool} {glyphs : List Glyph} {glyph : Glyph}
    (member : glyph ∈ glyphs.take (count holds glyphs)) : holds glyph.rune = true := by
  rw [count, ← List.prefix_iff_eq_take.mp (List.takeWhile_prefix _)] at member
  exact List.mem_takeWhile_imp (p := fun glyph : Glyph => holds glyph.rune) member

/-- An identifier is made of parts of words. -/
theorem read_identifier {first : Glyph} {rest : List Glyph} {size : Nat}
    (reads : read first rest = (.ok .identifier, size)) :
    ∀ glyph ∈ (first :: rest).take size, isWordPart glyph.rune = true := by
  unfold read at reads
  split at reads
  · rename_i starts
    obtain rfl := (Prod.mk.inj reads).2
    rw [Nat.add_comm, List.take_succ_cons]
    rintro glyph (_ | ⟨_, later⟩)
    · simp [isWordPart, starts]
    · exact mem_take_count later
  · split at reads
    · dsimp only at reads
      split at reads <;> cases reads
    · split at reads
      · dsimp only at reads
        split at reads <;> cases reads
      · dsimp only at reads
        split at reads
        · rename_i kind pair
          cases reads
          obtain ⟨second, -, marks⟩ := Option.bind_eq_some_iff.mp pair
          exact absurd marks (ofMarks?_ne _ _)
        · split at reads
          · rename_i kind mark
            cases reads
            exact absurd mark (ofMark?_ne _)
          · cases reads

theorem point_notMem_of_isWordPart {glyphs : List Glyph} (faithful : Faithful glyphs)
    (word : ∀ glyph ∈ glyphs, isWordPart glyph.rune = true) : 0x2E ∉ Glyph.text glyphs := by
  intro member
  obtain ⟨glyph, within, there⟩ := List.mem_flatMap.mp member
  have part := word glyph within
  rw [faithful glyph within 0x2E there (by decide)] at part
  exact absurd part (by decide)

end Lexeme

namespace ScanTarget

theorem next_identifier {target : ScanTarget} {cursor following : Cursor} {token : Token}
    (faithful : Faithful cursor.rest) (reads : target.next cursor = (.ok token, following))
    (isIdentifier : token.kind = .identifier) : 0x2E ∉ token.lexeme := by
  unfold next at reads
  split at reads
  · cases reads
  · rename_i size skipped
    dsimp only at reads
    split at reads
    · cases reads
      cases isIdentifier
    · rename_i first rest split_
      split at reads
      · rename_i kind taken read
        cases reads
        cases isIdentifier
        rw [split_]
        refine Lexeme.point_notMem_of_isWordPart (fun glyph member => ?_)
          (Lexeme.read_identifier read)
        refine faithful glyph ?_
        have later := List.mem_of_mem_take member
        rw [← split_, Cursor.rest_advance] at later
        exact List.mem_of_mem_drop later
      · cases reads

theorem next_faithful {target : ScanTarget} {cursor following : Cursor} {token : Token}
    (faithful : Faithful cursor.rest) (reads : target.next cursor = (.ok token, following)) :
    Faithful following.rest := by
  have drops : ∀ (size : Nat) (cursor : Cursor), Faithful cursor.rest →
      Faithful (cursor.advance size).rest := by
    intro size cursor faithful glyph member
    rw [Cursor.rest_advance] at member
    exact faithful glyph (List.mem_of_mem_drop member)
  unfold next at reads
  split at reads
  · cases reads
  · dsimp only at reads
    split at reads
    · cases reads
      exact drops _ _ faithful
    · split at reads
      · cases reads
        exact drops _ _ (drops _ _ faithful)
      · cases reads

theorem tokensWithin_identifier {target : ScanTarget} {steps : Nat} {cursor : Cursor}
    {tokens : List Token} (faithful : Faithful cursor.rest)
    (reads : target.tokensWithin steps cursor = .ok tokens) :
    ∀ token ∈ tokens, token.kind = .identifier → 0x2E ∉ token.lexeme := by
  induction steps generalizing cursor tokens with
  | zero =>
      cases reads
      simp
  | succ steps ih =>
      rw [tokensWithin] at reads
      split at reads
      · cases reads
      · rename_i token following first
        have here := next_identifier faithful first
        split at reads
        · cases reads
          simpa using here
        · cases later : target.tokensWithin steps following with
          | error diagnostic =>
              rw [later] at reads
              cases reads
          | ok others =>
              rw [later] at reads
              cases reads
              have rest := ih (next_faithful faithful first) later
              simpa using ⟨here, rest⟩

end ScanTarget

/-- No identifier of a file has a point in it. -/
theorem SourceFile.tokens_identifier {file : SourceFile} {tokens : List Token}
    (reads : file.tokens = .ok tokens) :
    ∀ token ∈ tokens, token.kind = .identifier → 0x2E ∉ token.lexeme :=
  ScanTarget.tokensWithin_identifier
    (fun _ member _ within ascii => Bytes.rune_of_mem_glyphsAfter member ascii within) reads

end Scanning

/-! ### Names among the tokens of a program -/

section Declaring

/-- The names that the declaration of a function introduces: its own and those of its parameters. -/
def FunctionDecl.names (declaration : FunctionDecl) : List Identifier :=
  declaration.name :: declaration.params.map Param.name

namespace Grammar

/-- An identifier is spelt by one of the tokens. -/
def SpeltIn (tokens : List Token) (identifier : Identifier) : Prop :=
  identifier.token ∈ tokens ∧ identifier.token.kind = .identifier

variable {loose : Bool} {tokens : List Token}

theorem SpeltIn.mono {more : List Token} {identifier : Identifier}
    (spelt : SpeltIn tokens identifier) (within : tokens ⊆ more) : SpeltIn more identifier :=
  ⟨within spelt.1, spelt.2⟩

theorem AreSomeParams.spelt {params : List Param} (derived : AreSomeParams tokens params) :
    ∀ param ∈ params, SpeltIn tokens param.name := by
  induction derived with
  | one name _ => simpa [SpeltIn] using name
  | more name _ _ _ ih =>
      rintro param (_ | ⟨_, later⟩)
      · exact ⟨List.mem_cons_self, name⟩
      · refine (ih param later).mono fun token member => ?_
        simp [member]

theorem IsFunction.names {declaration : FunctionDecl}
    (derived : IsFunction loose tokens declaration) :
    ∀ identifier ∈ declaration.names, SpeltIn tokens identifier := by
  cases derived with
  | mk _ name _ params _ _ _ =>
      simp only [FunctionDecl.names, List.mem_cons, List.mem_map]
      rintro identifier (rfl | ⟨param, member, rfl⟩)
      · exact ⟨by simp, name⟩
      · cases params with
        | none => cases member
        | some some_ =>
            refine (some_.spelt param member).mono fun token there => ?_
            simp [there]

theorem AreItems.names {items : List Item} (derived : AreItems loose tokens items) :
    ∀ declaration, .function declaration ∈ items →
      ∀ identifier ∈ declaration.names, SpeltIn tokens identifier := by
  induction derived with
  | none => simp
  | function declaration _ ih =>
      rintro other (_ | ⟨_, later⟩) identifier named
      · exact (declaration.names identifier named).mono (List.subset_append_left _ _)
      · exact (ih other later identifier named).mono (List.subset_append_right _ _)
  | statement _ _ ih =>
      rintro other (_ | ⟨_, later⟩) identifier named
      exact (ih other later identifier named).mono (List.subset_append_right _ _)

end Grammar

theorem SourceFile.ofTokens_of_parse {file : SourceFile} {tokens : List Token} {program : Program}
    (parsed : file.parse = .ok (tokens, program)) :
    file.tokens = .ok tokens ∧ Program.ofTokens file.origin tokens = .ok program := by
  unfold parse at parsed
  cases scanned : file.tokens with
  | error diagnostic =>
      rw [scanned] at parsed
      cases parsed
  | ok read =>
      rw [scanned] at parsed
      cases made : Program.ofTokens file.origin read with
      | error diagnostic => simp [bind, Except.bind, made] at parsed
      | ok tree =>
          simp only [bind, Except.bind, made, pure, Except.pure, Except.ok.injEq, Prod.mk.injEq]
            at parsed
          obtain ⟨rfl, rfl⟩ := parsed
          exact ⟨rfl, made⟩

/-- **The names of the functions of a file and of their parameters have no point.** -/
theorem SourceFile.point_notMem {file : SourceFile} {tokens : List Token} {program : Program}
    (parsed : file.parse = .ok (tokens, program)) :
    ∀ declaration ∈ program.functions, ∀ identifier ∈ declaration.names,
      0x2E ∉ identifier.name := by
  obtain ⟨scanned, read⟩ := ofTokens_of_parse parsed
  intro declaration member identifier named
  obtain ⟨item, there, isFunction⟩ := List.mem_filterMap.mp member
  obtain rfl : item = .function declaration := by
    cases item with
    | function other => exact congrArg Item.function (Option.some.inj isFunction)
    | statement content => cases isFunction
  obtain ⟨within, isIdentifier⟩ :=
    (Program.derived_of_ofTokens read).names declaration there identifier named
  exact tokens_identifier scanned _ ((List.takeWhile_sublist _).subset within) isIdentifier

end Declaring

end ScriptCompiler
