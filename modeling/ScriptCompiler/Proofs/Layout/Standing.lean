import ScriptCompiler.Proofs.Layout.Building
import ScriptCompiler.Proofs.Statics.Answers
import ScriptCompiler.Proofs.Token.Tiling

/-!
# What stands at the tokens

No stage behind the scanner looks at positions.  So a change of positions that leaves the tokens of
a file where they are also leaves its program where it is, and what keeps it from being read or
lowered.  What stands still while everything else moves is at a token, and so every place in a
program and every place that is blamed is the place of a token (`Program.exists_token_of_refused`,
`Lowering.exists_token_of_refused`).
-/

namespace ScriptCompiler

/-- Each token begins before the next one. -/
def Token.InOrder (tokens : List Token) : Prop :=
  tokens.Pairwise fun token later => token.position.offset < later.position.offset

section Order

/-- Tokens that tile a text begin one after the other, before the end of what they tile. -/
theorem Tiles.inOrder {file text front : Bytes} {tokens : List Token}
    (tiles : Tiles file text front tokens) :
    Token.InOrder tokens ∧ ∀ token ∈ tokens, token.position.offset < front.length := by
  induction tiles with
  | nil => exact ⟨List.Pairwise.nil, by simp⟩
  | @token front gap rest tokens token _ _ _ _ nonempty _ position ih =>
      obtain ⟨inOrder, before⟩ := ih
      have offset : token.position.offset = (front ++ gap).length := by
        rw [position]
        rfl
      have positive := List.length_pos_iff.mpr nonempty
      refine ⟨List.pairwise_append.mpr ⟨inOrder, List.pairwise_singleton _ _, ?_⟩, ?_⟩
      · intro earlier member last isLast
        have within := before earlier member
        rw [List.mem_singleton.mp isLast, offset, List.length_append]
        omega
      · intro other member
        rw [List.length_append, List.length_append]
        rcases List.mem_append.mp member with earlier | isLast
        · have within := before other earlier
          omega
        · rw [List.mem_singleton.mp isLast, offset, List.length_append]
          omega

variable {file : SourceFile} {tokens : List Token}

/-- The tokens of a file begin one after the other, and the last one ends the input. -/
theorem SourceFile.tokens_inOrder (scanned : file.tokens = .ok tokens) :
    Token.InOrder tokens ∧ ∃ token ∈ tokens, token.kind = .eof := by
  have tiled := ScanTarget.tiled ⟨file.name, file.origin⟩ file.text
  rw [show ScanTarget.tokens ⟨file.name, file.origin⟩ file.text = .ok tokens from scanned] at tiled
  obtain ⟨front, gap, words, split, -, tiles, rfl, -⟩ := tiled
  obtain ⟨inOrder, before⟩ := tiles.inOrder
  refine ⟨List.pairwise_append.mpr ⟨inOrder, List.pairwise_singleton _ _, ?_⟩, _,
    List.mem_append_right _ (List.mem_singleton_self _), rfl⟩
  intro earlier member last isLast
  have within := before earlier member
  have offset : (Position.behind file.name file.text).offset = file.text.length := rfl
  rw [List.mem_singleton.mp isLast, offset, split, List.length_append]
  omega

end Order

section Standing

/-- The change of positions that leaves the tokens where they are and moves everything else. -/
def standing (tokens : List Token) : Move := fun position =>
  if tokens.any fun token => token.position == position then position
  else { position with offset := position.offset + 1 }

theorem map_moved_standing (tokens : List Token) :
    tokens.map (Token.moved (standing tokens)) = tokens := by
  have stays : ∀ token ∈ tokens, token.moved (standing tokens) = token := by
    intro token member
    have there : (tokens.any fun other => other.position == token.position) = true :=
      List.any_eq_true.mpr ⟨token, member, beq_self_eq_true _⟩
    simp [Token.moved, standing, there]
  calc tokens.map (Token.moved (standing tokens)) = tokens.map id := List.map_congr_left stays
    _ = tokens := List.map_id tokens

/-- What stands still is the position of a token. -/
theorem exists_of_standing {position : Position} (fixed : standing tokens position = position) :
    ∃ token ∈ tokens, token.position = position := by
  by_contra absent
  have none_ : (tokens.any fun token => token.position == position) = false := by
    simpa using absent
  have moved := congrArg Position.offset fixed
  simp only [standing, none_, Bool.false_eq_true, if_false] at moved
  omega

end Standing

namespace Program

variable {tokens : List Token} (ends : ∃ token ∈ tokens, token.kind = .eof) {origin : Origin}
include ends

/-- A program stands where its tokens stand. -/
theorem moved_standing {program : Program} (read : ofTokens origin tokens = .ok program) :
    program.moved (standing tokens) = program := by
  have fixed := @ofTokens_moved (standing tokens) tokens ends origin
  rw [map_moved_standing, read] at fixed
  exact (Except.ok.inj fixed).symm

/-- What keeps tokens from being a program stands at one of them. -/
theorem exists_token_of_refused {diagnostic : Diagnostic}
    (refused : ofTokens origin tokens = .error diagnostic) :
    ∃ token ∈ tokens, token.position = diagnostic.position := by
  have fixed := @ofTokens_moved (standing tokens) tokens ends origin
  rw [map_moved_standing, refused] at fixed
  exact exists_of_standing (congrArg Diagnostic.position (Except.error.inj fixed)).symm

end Program

/-- What keeps a program from being lowered stands at one of the tokens that the program stands
at. -/
theorem Lowering.exists_token_of_refused {options : EntryOptions} {file : SourceFile}
    {tokens : List Token} {program : Program} {diagnostic : Diagnostic} (regular : program.Regular)
    (fixed : program.moved (standing tokens) = program)
    (refused : build options file program = .error diagnostic) :
    diagnostic.category ≠ .invalidIndex ∧
      ∃ token ∈ tokens, token.position = diagnostic.position := by
  -- A program that was read is never lost, so its diagnostic has a position.
  have known : diagnostic.category ≠ .invalidIndex := by
    have listed := (violates_of_refused regular refused).category_mem
    intro lost
    rw [lost] at listed
    exact absurd listed (by decide)
  have moved := @build_moved (standing tokens) options file program
  rw [fixed, refused] at moved
  obtain ⟨again, same, stands⟩ := moved
  cases same
  exact ⟨known, exists_of_standing (stands.position_eq.resolve_left known).symm⟩

end ScriptCompiler
