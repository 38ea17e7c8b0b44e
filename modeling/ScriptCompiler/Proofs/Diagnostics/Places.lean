import ScriptCompiler.Proofs.Layout.Standing
import ScriptCompiler.Proofs.Text.Lines
import ScriptCompiler.Proofs.Token.Tiling

/-!
# What diagnostics point at

A position is found by counting newlines and the runes behind the last one; a line of a file is
found by splitting the text.  Both speak of the same line, and the column of a position is that of
the offset in it: so the excerpt of a diagnostic shows the line of its offset, with a caret below
the offset (`Diagnostic.excerpt_behind`).

The scanner stops where a fault stands, and the stages behind it blame tokens, since they never look
at positions (`Program.exists_token_of_refused`, `Lowering.exists_token_of_refused`).  So every
diagnostic of a file points at an offset where such a fault or a token stands, and its excerpt shows
the line of that offset (`CompiledUnit.compile_points`).
-/

namespace ScriptCompiler

/-! ### Excerpts -/

namespace Bytes

/-- The part of a line that stands before an offset of a text. -/
def lineBefore (text : Bytes) (offset : Nat) : Bytes := lastLine (text.take offset)

/-- The line of an offset of a text, without its newline. -/
def lineAt (text : Bytes) (offset : Nat) : Bytes :=
  text.lineBefore offset ++ (text.drop offset).takeWhile fun byte => byte != 0x0A

end Bytes

/-- What an excerpt shows of an offset: its line without the line end, and a caret below it. -/
def SourceFile.pointer (file : SourceFile) (offset : Nat) : Bytes :=
  Bytes.dropSuffix [0x0D] (file.text.lineAt offset) ++ "\n" ++
    Bytes.filled (Bytes.runeCount (file.text.lineBefore offset)) 0x20 ++ "^"

/-- Both ways of finding a line agree: the newlines before an offset count the parts of the text
before the one in which the offset lies. -/
theorem SourceFile.line_count (file : SourceFile) (offset : Nat) :
    file.line (1 + (file.text.take offset).count 0x0A : Nat) =
      Bytes.dropSuffix [0x0D] (file.text.lineAt offset) := by
  have known : ¬ ((1 + (file.text.take offset).count 0x0A : Nat) : Int) < 1 := by omega
  have counted : (((1 + (file.text.take offset).count 0x0A : Nat) : Int) - 1).toNat =
      (file.text.take offset).count 0x0A := by omega
  have part := Bytes.getD_splitOn_count 0x0A (file.text.take offset) (file.text.drop offset)
  rw [List.take_append_drop] at part
  rw [line, if_neg known, counted, part]
  rfl

/-- The excerpt of a diagnostic right behind a part of the text points at the end of that part. -/
theorem Diagnostic.excerpt_behind {diagnostic : Diagnostic} {file : SourceFile} {offset : Nat}
    (position : diagnostic.position = .behind file.name (file.text.take offset)) :
    diagnostic.excerpt file = file.pointer offset := by
  have known : diagnostic.position.isKnown = true := by
    simp [position, Position.behind, Position.isKnown]
    omega
  have line : diagnostic.position.line = (1 + (file.text.take offset).count 0x0A : Nat) := by
    simp [position, Position.behind]
  have column : (diagnostic.position.column - 1).toNat =
      Bytes.runeCount (file.text.lineBefore offset) := by
    simp only [position, Position.behind, Bytes.lineBefore]
    omega
  rw [excerpt, if_pos known, line, file.line_count, column, SourceFile.pointer]

/-! ### Places in a file -/

namespace SourceFile

/-- Behind tokens and a gap there stands, at an offset, a character that begins no token or the
opening of a string or of a comment that is not closed. -/
def FaultAt (file : SourceFile) (offset : Nat) : Prop :=
  ∃ front gap words fault, file.text.take offset = front ++ gap ∧
    Tiles file.name file.text front words ∧ Gap.Fills (file.text.drop offset) gap ∧
    LexicalFault.Stands (file.text.drop offset) fault

/-- At an offset there stands a token of a file, or the end of its text. -/
def TokenAt (file : SourceFile) (offset : Nat) : Prop :=
  ∃ tokens, file.tokens = .ok tokens ∧
    ∃ token ∈ tokens, token.position.offset = offset ∧ token.Located file.name file.text

/-- What a stage may blame at an offset. -/
def BlamedBy (file : SourceFile) (offset : Nat) : Stage → Prop
  | .lexing => file.FaultAt offset
  | .parsing | .building => file.TokenAt offset
  | .execution => False

end SourceFile

/-- A diagnostic points at an offset of a file. -/
structure Diagnostic.PointsAt (diagnostic : Diagnostic) (file : SourceFile) (offset : Nat) :
    Prop where
  /-- The offset of its position is that one. -/
  offset_eq : diagnostic.position.offset = offset
  /-- Its line and its column are those of the text before the offset. -/
  position_eq : diagnostic.position = .behind file.name (file.text.take offset)
  /-- Its excerpt shows the line of the offset, with a caret below the offset. -/
  excerpt_eq : diagnostic.excerpt file = file.pointer offset

namespace Diagnostic.PointsAt

variable {diagnostic : Diagnostic} {file : SourceFile}

/-- A position behind a part of the text in front points at the end of that part. -/
theorem of_split {front rest : Bytes} (split : file.text = front ++ rest)
    (position : diagnostic.position = .behind file.name front) :
    diagnostic.PointsAt file front.length := by
  have part : file.text.take front.length = front := by rw [split, List.take_left]
  rw [← part] at position
  refine ⟨?_, position, excerpt_behind position⟩
  rw [position, Position.behind, part]

/-- A diagnostic at the position of a token points at the token. -/
theorem of_token {token : Token} (located : token.Located file.name file.text)
    (position : token.position = diagnostic.position) :
    ∃ offset : Nat, token.position.offset = offset ∧ diagnostic.PointsAt file offset := by
  have place := located.position
  rw [position] at place ⊢
  have points := of_split (List.take_append_drop _ file.text).symm place
  exact ⟨_, points.offset_eq, points⟩

end Diagnostic.PointsAt

/-! ### What the stages blame -/

namespace SourceFile

variable {file : SourceFile} {tokens : List Token} {diagnostic : Diagnostic}

theorem tiled (file : SourceFile) :
    (ScanTarget.mk file.name file.origin).Tiled file.text file.tokens :=
  ScanTarget.tiled _ _

/-- Where a file has no tokens, its diagnostic points at what stops the scanner. -/
theorem pointsAt_of_tokens (refused : file.tokens = .error diagnostic) :
    diagnostic.stage = .lexing ∧
      ∃ offset, diagnostic.PointsAt file offset ∧ file.FaultAt offset := by
  have tiled := file.tiled
  rw [refused] at tiled
  obtain ⟨front, gap, rest, words, fault, split, fills, tiles, stands, rfl⟩ := tiled
  have before : file.text.take (front ++ gap).length = front ++ gap := by rw [split, List.take_left]
  have behind : file.text.drop (front ++ gap).length = rest := by rw [split, List.drop_left]
  have halts : file.FaultAt (front ++ gap).length :=
    ⟨front, gap, words, fault, before, tiles, behind ▸ fills, behind ▸ stands⟩
  exact ⟨rfl, _, .of_split split rfl, halts⟩

/-- A diagnostic at the position of a token of a file points at that token. -/
theorem pointsAt_of_token (scanned : file.tokens = .ok tokens)
    (blamed : ∃ token ∈ tokens, token.position = diagnostic.position) :
    ∃ offset, diagnostic.PointsAt file offset ∧ file.TokenAt offset := by
  obtain ⟨token, member, position⟩ := blamed
  have tiled := file.tiled
  rw [scanned] at tiled
  obtain ⟨-, -, -, -, -, -, -, located⟩ := tiled
  obtain ⟨offset, isOffset, points⟩ := Diagnostic.PointsAt.of_token (located token member) position
  exact ⟨offset, points, tokens, scanned, token, member, isOffset, located token member⟩

theorem parse_error (refused : file.parse = .error diagnostic) :
    file.tokens = .error diagnostic ∨ ∃ tokens, file.tokens = .ok tokens ∧
      Program.ofTokens file.origin tokens = .error diagnostic := by
  unfold parse at refused
  cases scanned : file.tokens with
  | error found =>
      rw [scanned] at refused
      cases refused
      exact .inl rfl
  | ok tokens =>
      refine .inr ⟨tokens, rfl, ?_⟩
      rw [scanned] at refused
      cases read : Program.ofTokens file.origin tokens with
      | error found =>
          simp only [bind, Except.bind, read] at refused
          cases refused
          rfl
      | ok program => simp [bind, Except.bind, read, pure, Except.pure] at refused

end SourceFile

/-- What keeps tokens from being a program is the parser's to report. -/
theorem Program.stage_of_refused {origin : Origin} {tokens : List Token} {diagnostic : Diagnostic}
    (refused : ofTokens origin tokens = .error diagnostic) : diagnostic.stage = .parsing := by
  unfold ofTokens at refused
  split at refused <;> cases refused
  rfl

theorem Lowering.stage_of_refused {options : EntryOptions} {file : SourceFile} {program : Program}
    {diagnostic : Diagnostic} (regular : program.Regular)
    (refused : build options file program = .error diagnostic) : diagnostic.stage = .building := by
  have listed := (violates_of_refused regular refused).category_mem
  simp only [violations, List.mem_cons, List.not_mem_nil, or_false] at listed
  rcases listed with category | category | category <;> rw [Diagnostic.stage, category] <;> rfl

namespace CompiledUnit

/-- **Every diagnostic points at the source it blames.**  A diagnostic of compiling a file is one of
scanning, reading or lowering it.  It points at an offset of the file at which there stands a
character that begins no token or the opening of a string or comment that is not closed, where the
scanner raised it, and a token otherwise. -/
theorem compile_points (options : CompilerOptions) (file : SourceFile) {failure : Failure}
    {diagnostic : Diagnostic} (failed : (compile options file).outcome.1 = .error failure)
    (carries : failure.diagnostic = some diagnostic) :
    ∃ offset, diagnostic.PointsAt file offset ∧ file.BlamedBy offset diagnostic.stage := by
  rcases compile_error failed carries with unread | ⟨tokens, program, parsed, refused⟩
  · rcases SourceFile.parse_error unread with unscanned | ⟨tokens, scanned, refused⟩
    · obtain ⟨stage, offset, points, fault⟩ := SourceFile.pointsAt_of_tokens unscanned
      exact ⟨offset, points, stage ▸ fault⟩
    · obtain ⟨-, ends⟩ := SourceFile.tokens_inOrder scanned
      obtain ⟨offset, points, token⟩ :=
        SourceFile.pointsAt_of_token scanned (Program.exists_token_of_refused ends refused)
      exact ⟨offset, points, Program.stage_of_refused refused ▸ token⟩
  · obtain ⟨scanned, read⟩ := SourceFile.ofTokens_of_parse parsed
    obtain ⟨-, ends⟩ := SourceFile.tokens_inOrder scanned
    have regular := SourceFile.regular_of_parse parsed
    have fixed := Program.moved_standing ends read
    obtain ⟨offset, points, token⟩ := SourceFile.pointsAt_of_token scanned
      (Lowering.exists_token_of_refused regular fixed refused).2
    exact ⟨offset, points, Lowering.stage_of_refused regular refused ▸ token⟩

/-- Lines with ends of two bytes, and a name without a declaration behind runes of two bytes. -/
def misspeltFile : SourceFile := ⟨"size.tss", "var größe = 1;\r\nprint(\"é\" == gröse);\r\n"⟩

/-- The line of that name and a caret below it. -/
def misspeltLine : Bytes := "print(\"é\" == gröse);\n             ^"

theorem compile_points_misspelt : ∃ failure diagnostic,
    (compile {} misspeltFile).outcome.1 = .error failure ∧ failure.diagnostic = some diagnostic ∧
      diagnostic.position.offset = 32 ∧ diagnostic.excerpt misspeltFile = misspeltLine ∧
      ∃ offset, diagnostic.PointsAt misspeltFile offset ∧
        misspeltFile.BlamedBy offset diagnostic.stage := by
  have check : (match (compile {} misspeltFile).outcome.1 with
      | .ok _ => false
      | .error failure => failure.diagnostic.any fun diagnostic =>
          diagnostic.position.offset == 32 && diagnostic.excerpt misspeltFile == misspeltLine) =
      true := by
    simp only [misspeltFile, Bytes.ofString_eq]
    decide +kernel
  cases failed : (compile {} misspeltFile).outcome.1 with
  | ok unit => simp [failed] at check
  | error failure =>
      rw [failed] at check
      obtain ⟨diagnostic, carries, check⟩ := (Option.any_eq_true _ _).mp check
      simp only [Bool.and_eq_true, beq_iff_eq] at check
      exact ⟨failure, diagnostic, rfl, carries, check.1, check.2,
        compile_points {} _ failed carries⟩

end CompiledUnit

end ScriptCompiler
