import Mathlib.Logic.Function.Iterate
import ScriptCompiler.Proofs.Token.Tiling

/-!
# Progress of the scanner

A step of the scanner moves its cursor on, whether it answers with a token or with a diagnostic,
unless it is at the end of the text; there it stays and keeps giving the same answer.  So the end is
reached after at most as many steps as the text has bytes (`ScanTarget.steps_progress`).
-/

namespace ScriptCompiler

/-- A cursor in a text: what it has read and what is left make up the size of the text. -/
structure Cursor.Inside (text : Bytes) (cursor : Cursor) : Prop where
  /-- What is left is the reading of some text. -/
  legible : Legible cursor.rest
  /-- The bytes that are read and the bytes that are left. -/
  size : cursor.offset + (Glyph.text cursor.rest).length = text.length

namespace Cursor.Inside

variable {text : Bytes} {cursor : Cursor}

theorem ofText (text : Bytes) : (ofText text).Inside text where
  legible := .ofText text
  size := by rw [Cursor.ofText, Bytes.text_glyphs, Nat.zero_add]

theorem step (inside : cursor.Inside text) : cursor.step.Inside text where
  legible := by
    rw [rest_step]
    exact inside.legible.drop 1
  size := by
    have size := inside.size
    unfold Cursor.step
    split
    · exact size
    · rename_i glyph rest split_
      rw [split_, Glyph.text_cons, List.length_append, ← Nat.add_assoc] at size
      split <;> exact size

theorem advance (inside : cursor.Inside text) (moved : Nat) :
    (cursor.advance moved).Inside text := by
  induction moved generalizing cursor with
  | zero => exact inside
  | succ moved ih => exact ih inside.step

theorem offset_le (inside : cursor.Inside text) : cursor.offset ≤ text.length :=
  inside.size ▸ Nat.le_add_right _ _

/-- Where something is left, a cursor that passes some of it is further on. -/
theorem offset_lt_advance (inside : cursor.Inside text) (left : cursor.rest ≠ []) {moved : Nat}
    (some : 0 < moved) : cursor.offset < (cursor.advance moved).offset := by
  have before := inside.size
  have after := (inside.advance moved).size
  obtain ⟨glyph, rest, split⟩ := List.exists_cons_of_ne_nil left
  obtain ⟨moved, rfl⟩ := Nat.exists_eq_succ_of_ne_zero some.ne'
  have isGlyph : glyph ∈ cursor.rest := split ▸ List.mem_cons_self
  obtain ⟨lead, more, spelt⟩ := (inside.legible.regular isGlyph).exists_cons
  -- The first glyph is passed, and it has a byte.
  have parts : Glyph.text cursor.rest =
      glyph.bytes ++ (Glyph.text (rest.take moved) ++ Glyph.text (rest.drop moved)) := by
    rw [split, Glyph.text_cons, ← Glyph.text_append, List.take_append_drop]
  rw [rest_advance, split, List.drop_succ_cons] at after
  rw [parts, spelt] at before
  simp only [List.length_append, List.length_cons] at before
  omega

end Cursor.Inside

theorem Lexeme.read_pos (first : Glyph) (rest : List Glyph) : 0 < (read first rest).2 := by
  unfold read
  split
  · dsimp only
    omega
  · split
    · dsimp only
      omega
    · split
      · dsimp only
        omega
      · dsimp only
        split
        · exact Nat.succ_pos _
        · split <;> exact Nat.succ_pos _

namespace ScanTarget

variable (target : ScanTarget)

/-- The answer of the scanner at the end of a text. -/
def IsEnd : Except Diagnostic Token → Prop
  | .ok token => token.kind = .eof
  | .error _ => False

/-- The cursor behind a number of steps that go on after diagnostics. -/
def cursorAfter (count : Nat) (cursor : Cursor) : Cursor :=
  (fun cursor => (target.next cursor).2)^[count] cursor

/-- The answer of the step behind a number of others. -/
def answerAfter (count : Nat) (cursor : Cursor) : Except Diagnostic Token :=
  (target.next (target.cursorAfter count cursor)).1

/-- A step moves on, unless it answers with the end of the text and leaves nothing to read. -/
theorem next_moves (cursor : Cursor) : ∃ moved, (target.next cursor).2 = cursor.advance moved ∧
    ((target.next cursor).1 = .ok ⟨.eof, [], (cursor.advance moved).position target.file⟩ ∧
        (cursor.advance moved).rest = [] ∨
      ¬ IsEnd (target.next cursor).1 ∧ cursor.rest ≠ [] ∧ 0 < moved) := by
  rw [next]
  cases skips : Gap.skip .between 0 cursor.rest with
  | unclosed start =>
      have left : cursor.rest ≠ [] := by
        intro empty
        rw [empty] at skips
        cases skips
      exact ⟨_, rfl, .inr ⟨id, left, List.length_pos_of_ne_nil left⟩⟩
  | closed size =>
      have remains := Cursor.rest_advance size cursor
      dsimp only
      cases split : (cursor.advance size).rest with
      | nil => exact ⟨size, rfl, .inl ⟨rfl, split⟩⟩
      | cons first rest =>
          have left : cursor.rest ≠ [] := by
            intro empty
            rw [split, empty, List.drop_nil] at remains
            cases remains
          have some := Nat.lt_of_lt_of_le (Lexeme.read_pos first rest) (Nat.le_add_left _ size)
          dsimp only
          cases reads : Lexeme.read first rest with
          | mk result taken =>
              rw [reads] at some
              refine ⟨size + taken, ?_, .inr ⟨?_, left, some⟩⟩
              · cases result <;> exact (Cursor.advance_add size taken).symm
              · cases result with
                | error fault => exact id
                | ok kind => exact (Lexeme.read_ok reads).1

/-- At the end of a text the scanner stays. -/
theorem next_of_rest_nil {cursor : Cursor} (empty : cursor.rest = []) :
    target.next cursor = (.ok ⟨.eof, [], cursor.position target.file⟩, cursor) := by
  rw [next, empty]
  simp only [Gap.skip, Cursor.advance, empty]

theorem cursorAfter_succ (count : Nat) (cursor : Cursor) :
    target.cursorAfter (count + 1) cursor = (target.next (target.cursorAfter count cursor)).2 :=
  Function.iterate_succ_apply' _ _ _

theorem steps_eq (count : Nat) (cursor : Cursor) :
    target.steps count cursor = (List.range count).map fun earlier =>
      target.answerAfter earlier cursor := by
  induction count generalizing cursor with
  | zero => rfl
  | succ count ih =>
      rw [steps, ih, List.range_succ_eq_map, List.map_cons, List.map_map]
      rfl

variable {target} {text : Bytes} {cursor : Cursor}

theorem inside_cursorAfter (inside : cursor.Inside text) (count : Nat) :
    (target.cursorAfter count cursor).Inside text := by
  induction count with
  | zero => exact inside
  | succ count ih =>
      obtain ⟨moved, same, -⟩ := target.next_moves (target.cursorAfter count cursor)
      rw [cursorAfter_succ, same]
      exact ih.advance moved

theorem offset_lt_of_not_isEnd (inside : cursor.Inside text) {count : Nat}
    (goesOn : ¬ IsEnd (target.answerAfter count cursor)) :
    (target.cursorAfter count cursor).offset < (target.cursorAfter (count + 1) cursor).offset := by
  rw [cursorAfter_succ]
  obtain ⟨moved, same, ⟨answer, -⟩ | ⟨-, left, some⟩⟩ :=
    target.next_moves (target.cursorAfter count cursor)
  · rw [answerAfter, answer] at goesOn
    exact absurd rfl goesOn
  · rw [same]
    exact (inside_cursorAfter inside count).offset_lt_advance left some

/-- Behind the end of a text the same answer comes again and again. -/
theorem answerAfter_of_isEnd {count : Nat} (isEnd : IsEnd (target.answerAfter count cursor))
    (more : Nat) : target.answerAfter (count + more) cursor = target.answerAfter count cursor := by
  obtain ⟨moved, same, ⟨answer, empty⟩ | ⟨goesOn, -⟩⟩ :=
    target.next_moves (target.cursorAfter count cursor)
  · rw [← same] at answer empty
    rw [← cursorAfter_succ] at answer empty
    have stays : ∀ more, target.cursorAfter (count + 1 + more) cursor =
        target.cursorAfter (count + 1) cursor := by
      intro more
      induction more with
      | zero => rfl
      | succ more ih => rw [← Nat.add_assoc, cursorAfter_succ, ih, target.next_of_rest_nil empty]
    cases more with
    | zero => rfl
    | succ more =>
        rw [← Nat.add_assoc, Nat.add_right_comm, answerAfter, stays, target.next_of_rest_nil empty,
          answerAfter, answer]
  · exact absurd isEnd goesOn

/-- As long as the end has not come, each step has passed a byte. -/
theorem le_offset_cursorAfter (inside : cursor.Inside text) {count : Nat}
    (goesOn : ∀ earlier < count, ¬ IsEnd (target.answerAfter earlier cursor)) :
    count ≤ (target.cursorAfter count cursor).offset := by
  induction count with
  | zero => exact Nat.zero_le _
  | succ count ih =>
      have before := ih fun earlier less => goesOn earlier (Nat.lt_succ_of_lt less)
      exact Nat.lt_of_le_of_lt before
        (offset_lt_of_not_isEnd inside (goesOn count (Nat.lt_succ_self _)))

/-- **The scanner makes progress.**  The answers of a scanner that goes on after diagnostics are
those of its steps, one for each.  A step that answers with a token before the end or with a
diagnostic moves the cursor on and not out of the text; behind the end the same answer comes again
and again; and the end comes within one step more than the text has bytes. -/
theorem steps_progress (target : ScanTarget) (text : Bytes) :
    (∀ count, target.steps count (.ofText text) =
        (List.range count).map fun earlier => target.answerAfter earlier (.ofText text)) ∧
      (∀ count, ¬ IsEnd (target.answerAfter count (.ofText text)) →
        (target.cursorAfter count (.ofText text)).offset <
          (target.cursorAfter (count + 1) (.ofText text)).offset) ∧
      (∀ count, (target.cursorAfter count (.ofText text)).offset ≤ text.length) ∧
      (∀ count, IsEnd (target.answerAfter count (.ofText text)) → ∀ more,
        target.answerAfter (count + more) (.ofText text) =
          target.answerAfter count (.ofText text)) ∧
      ∃ count ≤ text.length, IsEnd (target.answerAfter count (.ofText text)) := by
  have inside := Cursor.Inside.ofText text
  refine ⟨fun count => target.steps_eq count _, fun count => offset_lt_of_not_isEnd inside,
    fun count => (inside_cursorAfter inside count).offset_le, fun count => answerAfter_of_isEnd, ?_⟩
  by_contra never
  push Not at never
  have far : text.length + 1 ≤ (target.cursorAfter (text.length + 1) (.ofText text)).offset :=
    le_offset_cursorAfter inside fun earlier less => never earlier (Nat.le_of_lt_succ less)
  have near : (target.cursorAfter (text.length + 1) (.ofText text)).offset ≤ text.length :=
    (inside_cursorAfter inside _).offset_le
  omega

end ScanTarget

end ScriptCompiler
