import Mathlib.Algebra.Group.Nat.Defs
import ScriptCompiler.Proofs.Text.Glyphs
import ScriptCompiler.Proofs.Text.Lines
import ScriptCompiler.Text.Composed

/-!
# Composed text before a newline

A newline is composed with nothing, and no other rune is composed to one.  So the composed form of a
text with a newline behind it is that of the text alone and the newline.  There is one exception: a
text that ends within the bytes of a rune keeps its tail as it is, and the newline may make up for
the missing bytes, so that the tail is composed as well (`Bytes.composed_newline`).
-/

namespace ScriptCompiler

open Bytes

/-! ### Runes and their decompositions -/

namespace Rune

theorem mem_row_of_decomposeOnce {rune : Rune} {parts : List Rune}
    (found : decomposeOnce rune = some parts) :
    parts.length ≤ 2 ∧ ∃ row ∈ decompositionRows, parts ⊆ row := by
  unfold decomposeOnce at found
  split at found
  · cases found
  · obtain ⟨row, member, chosen⟩ := List.exists_of_findSome?_eq_some found
    split at chosen
    · split at chosen <;> cases chosen
      exact ⟨by simp, _, member, by simp⟩
    · split at chosen <;> cases chosen
      exact ⟨by simp, _, member, by simp⟩
    · cases chosen

theorem length_decomposeWithin (steps : Nat) (rune : Rune) :
    2 * (decomposeWithin steps rune).length ≤ 3 * 2 ^ steps := by
  induction steps generalizing rune with
  | zero => simp [decomposeWithin]
  | succ steps ih =>
      have positive : 1 ≤ 2 ^ steps := Nat.one_le_two_pow
      rw [decomposeWithin, Nat.pow_succ]
      split
      · dsimp only
        split <;> simp <;> omega
      · split
        · simp
          omega
        · rename_i parts found
          have few := (mem_row_of_decomposeOnce found).1
          rcases parts with _ | ⟨first, _ | ⟨second, _ | ⟨third, more⟩⟩⟩
          · simp
          · have size := ih first
            simp
            omega
          · have size := ih first
            have size' := ih second
            simp
            omega
          · simp at few

/-- A rune expands to fewer combining runes than a segment may hold. -/
theorem combiningEnds_le (rune : Rune) :
    (combiningEnds rune).1 ≤ Segment.combiningLimit ∧ (combiningEnds rune).2 ≤
      Segment.combiningLimit := by
  have rows : ∀ row ∈ expansionRows, ∀ number ∈ row.drop 2, number ≤ Segment.combiningLimit := by
    decide +kernel
  have parts : (decompose rune).length ≤ Segment.combiningLimit := by
    have size := length_decomposeWithin 4 rune
    rw [decompose, Segment.combiningLimit]
    omega
  unfold combiningEnds
  split
  · exact ⟨Nat.zero_le _, Nat.zero_le _⟩
  · dsimp only
    generalize found : expansionRows.findSome? _ = ends
    cases ends with
    | none =>
        have front := (List.takeWhile_prefix isCombining (l := decompose rune)).length_le
        have back := (List.takeWhile_prefix isCombining (l := (decompose rune).reverse)).length_le
        rw [List.length_reverse] at back
        exact ⟨front.trans parts, back.trans parts⟩
    | some ends =>
        obtain ⟨row, member, chosen⟩ := List.exists_of_findSome?_eq_some found
        split at chosen
        · split at chosen <;> cases chosen
          exact ⟨rows _ member _ (by simp), rows _ member _ (by simp)⟩
        · cases chosen

theorem newline_not_mem_decompositionRows : ∀ row ∈ decompositionRows, 0x0A ∉ row := by
  have all : (decompositionRows.all fun row => !row.contains 0x0A) = true := by decide +kernel
  simpa using all

/-- Only a newline is decomposed to one. -/
theorem eq_newline_of_mem_decomposeWithin {steps : Nat} {rune : Rune}
    (member : 0x0A ∈ decomposeWithin steps rune) : rune = 0x0A := by
  induction steps generalizing rune with
  | zero => simpa [decomposeWithin, eq_comm] using member
  | succ steps ih =>
      rw [decomposeWithin] at member
      split at member
      · dsimp only at member
        unfold Rune at member
        split at member <;>
          simp only [List.mem_append, List.mem_cons, List.not_mem_nil, or_false] at member <;> omega
      · split at member
        · simpa [eq_comm] using member
        · rename_i parts found
          obtain ⟨part, isPart, within⟩ := List.mem_flatMap.mp member
          obtain ⟨row, isRow, parts⟩ := (mem_row_of_decomposeOnce found).2
          exact absurd (ih within ▸ parts isPart) (newline_not_mem_decompositionRows row isRow)

/-- Nothing is composed to a newline. -/
theorem composePair_ne_newline {left right rune : Rune}
    (found : composePair left right = some rune) :
    rune ≠ 0x0A := by
  unfold composePair at found
  split at found
  · rw [← Option.some.inj found]
    unfold Rune
    omega
  · split at found
    · rename_i isHangul
      rw [← Option.some.inj found]
      simp only [isHangulSyllable, Bool.and_eq_true, decide_eq_true_eq] at isHangul
      unfold Rune at isHangul ⊢
      omega
    · obtain ⟨row, member, chosen⟩ := List.exists_of_findSome?_eq_some found
      split at chosen
      · split at chosen <;> cases chosen
        rintro rfl
        exact newline_not_mem_decompositionRows _ member List.mem_cons_self
      · cases chosen

/-- A rune other than a newline is spelt without one. -/
theorem oneLine_encode {rune : Rune} (other : rune ≠ 0x0A) : OneLine (encode rune) := by
  have scalar : ∀ value : Nat, value ≠ 0x0A → value < 0x110000 → OneLine (
      if value < 0x80 then [value.toUInt8]
      else if value < 0x800 then [(0xC0 + value / 64).toUInt8, (0x80 + value % 64).toUInt8]
      else if value < 0x10000 then
        [(0xE0 + value / 4096).toUInt8, (0x80 + value / 64 % 64).toUInt8,
          (0x80 + value % 64).toUInt8]
      else
        [(0xF0 + value / 262144).toUInt8, (0x80 + value / 4096 % 64).toUInt8,
          (0x80 + value / 64 % 64).toUInt8, (0x80 + value % 64).toUInt8]) := by
    intro value other small
    have byte : ∀ number : Nat, number < 256 → number ≠ 0x0A → number.toUInt8 ≠ 0x0A := by
      intro number small other same
      have numbers := congrArg UInt8.toNat same
      rw [Nat.toUInt8_eq, UInt8.toNat_ofNat_of_lt' small] at numbers
      exact other numbers
    split
    · exact oneLine_cons.mpr ⟨byte _ (by omega) other, oneLine_nil⟩
    · split
      · simp only [oneLine_cons, oneLine_nil, and_true]
        refine ⟨byte _ ?_ ?_, byte _ ?_ ?_⟩ <;> omega
      · split
        · simp only [oneLine_cons, oneLine_nil, and_true]
          refine ⟨byte _ ?_ ?_, byte _ ?_ ?_, byte _ ?_ ?_⟩ <;> omega
        · simp only [oneLine_cons, oneLine_nil, and_true]
          refine ⟨byte _ ?_ ?_, byte _ ?_ ?_, byte _ ?_ ?_, byte _ ?_ ?_⟩ <;> omega
  unfold encode
  refine scalar _ ?_ ?_
  · split
    · exact other
    · decide
  · split
    · rename_i valid
      simp only [isScalar, Bool.or_eq_true, Bool.and_eq_true, decide_eq_true_eq] at valid
      unfold Rune at valid
      omega
    · decide

end Rune

/-! ### Segments -/

namespace Segment

theorem mem_of_mem_insertFromRight {glyph other : Glyph} {before : List Glyph}
    (member : other ∈ insertFromRight glyph before) : other = glyph ∨ other ∈ before := by
  induction before with
  | nil => simpa [insertFromRight] using member
  | cons last others ih =>
      rw [insertFromRight] at member
      split at member
      · rcases List.mem_cons.mp member with rfl | later
        · exact .inr List.mem_cons_self
        · exact (ih later).imp_right (List.mem_cons_of_mem _)
      · exact List.mem_cons.mp member

theorem mem_of_mem_ordered {segment : List Glyph} {glyph : Glyph}
    (member : glyph ∈ ordered segment) :
    glyph ∈ segment.flatMap decomposeGlyph := by
  have inserted : ∀ glyphs before : List Glyph,
      glyph ∈ glyphs.foldl (fun before glyph => insertFromRight glyph before) before →
        glyph ∈ before ∨ glyph ∈ glyphs := by
    intro glyphs
    induction glyphs with
    | nil => exact fun before member => .inl member
    | cons first others ih =>
        intro before member
        rcases ih _ member with placed | later
        · rcases mem_of_mem_insertFromRight placed with rfl | earlier
          · exact .inr List.mem_cons_self
          · exact .inl earlier
        · exact .inr (List.mem_cons_of_mem _ later)
  exact (inserted _ [] (List.mem_reverse.mp member)).resolve_left List.not_mem_nil

theorem oneLine_of_mem_decomposeGlyph {glyph other : Glyph} (oneLine : OneLine glyph.bytes)
    (member : other ∈ decomposeGlyph glyph) : OneLine other.bytes := by
  rw [decomposeGlyph] at member
  split at member
  · rename_i decomposes
    obtain ⟨rune, isPart, rfl⟩ := List.mem_map.mp member
    refine Rune.oneLine_encode ?_
    rintro rfl
    rw [Rune.eq_newline_of_mem_decomposeWithin isPart] at decomposes
    exact absurd decomposes (by decide)
  · rwa [List.mem_singleton.mp member]

theorem Composition.glyphs_keep (composition : Composition) (glyph : Glyph) :
    (composition.keep glyph).glyphs = composition.glyphs ++ [glyph] := by
  rw [keep]
  split <;> simp [glyphs]

/-- A glyph is added as it is, or the latest starter is composed with it. -/
theorem Composition.mem_glyphs_add {composition : Composition} {glyph other : Glyph}
    (member : other ∈ (composition.add glyph).glyphs) :
    other ∈ composition.glyphs ∨ other = glyph ∨ ∃ rune ≠ 0x0A, other = Glyph.ofRune rune := by
  have kept : other ∈ (composition.keep glyph).glyphs → other ∈ composition.glyphs ∨
    other = glyph := by
    rw [glyphs_keep, List.mem_append, List.mem_singleton]
    exact id
  rw [add] at member
  split at member
  · exact (kept member).imp_right .inl
  · split at member
    · split at member
      · rename_i starter isStarter _ rune composed
        simp only [glyphs, Option.toList_some, List.mem_append, List.mem_singleton] at member ⊢
        rcases member with (before | rfl) | after
        · exact .inl (.inl (.inl before))
        · exact .inr (.inr ⟨rune, Rune.composePair_ne_newline composed, rfl⟩)
        · exact .inl (.inr after)
      · exact (kept member).imp_right .inl
    · exact (kept member).imp_right .inl

/-- A segment within a line is composed within the line. -/
theorem oneLine_of_mem_compose {segment : List Glyph}
    (oneLine : ∀ glyph ∈ segment, OneLine glyph.bytes)
    {glyph : Glyph} (member : glyph ∈ compose segment) : OneLine glyph.bytes := by
  have parts : ∀ glyph ∈ ordered segment, OneLine glyph.bytes := by
    intro glyph member
    obtain ⟨source, within, isPart⟩ := List.mem_flatMap.mp (mem_of_mem_ordered member)
    exact oneLine_of_mem_decomposeGlyph (oneLine source within) isPart
  have added : ∀ (glyphs : List Glyph) (composition : Composition),
      (∀ glyph ∈ glyphs, OneLine glyph.bytes) →
      (∀ glyph ∈ composition.glyphs, OneLine glyph.bytes) →
        ∀ glyph ∈ (glyphs.foldl Composition.add composition).glyphs, OneLine glyph.bytes := by
    intro glyphs
    induction glyphs with
    | nil => exact fun _ _ earlier => earlier
    | cons first others ih =>
        intro composition each earlier
        rw [List.forall_mem_cons] at each
        refine ih _ each.2 fun glyph member => ?_
        rcases Composition.mem_glyphs_add member with before | rfl | ⟨rune, other, rfl⟩
        · exact earlier glyph before
        · exact each.1
        · exact Rune.oneLine_encode other
  exact added _ {} parts (by simp [Composition.glyphs]) glyph member

/-- A glyph that is not decomposed is composed to itself. -/
theorem compose_singleton {glyph : Glyph} (whole : decomposeGlyph glyph = [glyph]) :
    compose [glyph] = [glyph] := by
  have alone : ordered [glyph] = [glyph] := by simp [ordered, whole, insertFromRight]
  rw [compose, alone]
  exact Composition.glyphs_keep {} glyph

end Segment

/-! ### Glyphs that are composed with nothing -/

/-- A glyph that neither is composed with others nor changed by itself. -/
structure Glyph.Inert (glyph : Glyph) : Prop where
  /-- No combining rune is at either of its ends. -/
  ends : Rune.combiningEnds glyph.rune = (0, 0)
  /-- It is composed to itself. -/
  compose_eq : Segment.compose [glyph] = [glyph]

theorem Rune.combiningEnds_replacement : combiningEnds replacement = (0, 0) := by decide +kernel

theorem Rune.decomposeOnce_replacement : decomposeOnce replacement = none := by decide +kernel

namespace Bytes

theorem inert_of_single {text : Bytes} {glyph : Glyph} (member : glyph ∈ glyphs text)
    (single : glyph.bytes.length = 1) : glyph.Inert := by
  rcases regular_of_mem_glyphs member with ⟨ascii, -⟩ | ⟨-, -, outside⟩
  · have small : glyph.rune < 0xC0 := ascii.trans (by decide)
    have noHangul : Rune.isHangulSyllable glyph.rune = false := by
      simp [Rune.isHangulSyllable, small.trans]
    refine ⟨?_, Segment.compose_singleton ?_⟩
    · rw [Rune.combiningEnds, if_pos (ascii.trans (by decide))]
    · simp [Segment.decomposeGlyph, noHangul, Rune.decomposeOnce, small]
  · obtain ⟨byte, spelt⟩ := List.length_eq_one_iff.mp single
    have broken : glyph.isIllFormed = true := by
      simpa [Glyph.isIllFormed, spelt] using outside
    have same := rune_of_isIllFormed member broken
    refine ⟨same ▸ Rune.combiningEnds_replacement, Segment.compose_singleton ?_⟩
    rw [Segment.decomposeGlyph, same, Rune.decomposeOnce_replacement]
    rfl

/-- Glyphs that are composed with nothing stay behind what is composed before them. -/
theorem composeFrom_inert {rest : List Glyph} (inert : ∀ glyph ∈ rest, glyph.Inert)
    (segment : List Glyph) {combining : Nat} (few : combining ≤ Segment.combiningLimit) :
    composeFrom segment combining rest = Segment.compose segment.reverse ++ rest := by
  induction rest generalizing segment combining with
  | nil => rw [composeFrom, List.append_nil]
  | cons glyph rest ih =>
      rw [List.forall_mem_cons] at inert
      rw [composeFrom]
      split
      · rfl
      · dsimp only
        rw [inert.1.ends,
          if_neg (show ¬ Segment.combiningLimit < combining + 0 from Nat.not_lt.mpr few),
          if_pos (by decide), ih inert.2 _ (Nat.zero_le _)]
        exact congrArg _ (congrArg (· ++ rest) inert.1.compose_eq)

/-- What is composed within a line stays within the line. -/
theorem oneLine_of_mem_composeFrom {rest segment : List Glyph} {combining : Nat}
    (oneLine : ∀ glyph ∈ rest, OneLine glyph.bytes)
    (oneLine' : ∀ glyph ∈ segment, OneLine glyph.bytes)
    {glyph : Glyph} (member : glyph ∈ composeFrom segment combining rest) :
    OneLine glyph.bytes := by
  have composed : ∀ {segment : List Glyph}, (∀ glyph ∈ segment, OneLine glyph.bytes) →
      glyph ∈ Segment.compose segment.reverse → OneLine glyph.bytes := fun oneLine member =>
    Segment.oneLine_of_mem_compose (fun glyph within => oneLine glyph (List.mem_reverse.mp within))
      member
  induction rest generalizing segment combining with
  | nil => exact composed oneLine' member
  | cons first rest ih =>
      have all := oneLine
      rw [List.forall_mem_cons] at oneLine
      have alone : ∀ glyph ∈ [first], OneLine glyph.bytes := by simpa using oneLine.1
      rw [composeFrom] at member
      split at member
      · rcases List.mem_append.mp member with before | tail
        · exact composed oneLine' before
        · exact all glyph tail
      · dsimp only at member
        split at member
        · rcases List.mem_append.mp member with before | after
          · have joined : ∀ glyph ∈ Segment.graphemeJoiner :: segment, OneLine glyph.bytes :=
              List.forall_mem_cons.mpr ⟨by decide, oneLine'⟩
            exact composed joined (by simpa using before)
          · exact ih oneLine.2 alone after
        · split at member
          · rcases List.mem_append.mp member with before | after
            · exact composed oneLine' before
            · exact ih oneLine.2 alone after
          · exact ih oneLine.2 (List.forall_mem_cons.mpr ⟨oneLine.1, oneLine'⟩) member

/-! ### Texts that end within a rune -/

theorem sequenceLength_le (lead : UInt8) :
    sequenceLength lead ≤ 4 ∧ (sequenceLength lead = 4 → 0xF0 ≤ lead) := by
  unfold sequenceLength
  split
  · simp
  · split
    · simp
    · split
      · simp
      · rename_i large
        exact ⟨by split <;> decide, fun _ => UInt8.not_lt.mp large⟩

/-- Behind a lead byte whose sequence the text is too short for there are glyphs of one byte, or
there is one glyph of two bytes and four bytes are asked for. -/
theorem endsTruncated_cases {first : Glyph} {rest : List Glyph}
    (some : ∀ glyph ∈ rest, glyph.bytes ≠ []) (truncated : endsTruncated (first :: rest) = true) :
    ∃ lead, first.bytes = [lead] ∧ ((∀ glyph ∈ rest, glyph.bytes.length = 1) ∨
      0xF0 ≤ lead ∧ ∃ last, rest = [last] ∧ last.bytes.length = 2) := by
  have positive : ∀ glyph ∈ rest, 0 < glyph.bytes.length :=
    fun glyph member => List.length_pos_iff.mpr (some glyph member)
  unfold endsTruncated at truncated
  dsimp only at truncated
  split at truncated
  · rename_i lead isLead
    refine ⟨lead, isLead, ?_⟩
    obtain ⟨most, large⟩ := sequenceLength_le lead
    simp only [decide_eq_true_eq, List.length_flatMap] at truncated
    rcases rest with _ | ⟨second, _ | ⟨third, _ | ⟨fourth, rest⟩⟩⟩
    · exact .inl (by simp)
    · have size := positive second (by simp)
      simp at truncated
      by_cases two : second.bytes.length = 2
      · exact .inr ⟨large (by omega), second, rfl, two⟩
      · refine .inl ?_
        simp
        omega
    · have size := positive second (by simp)
      have size' := positive third (by simp)
      simp at truncated
      refine .inl ?_
      simp
      omega
    · have size := positive second (by simp)
      have size' := positive third (by simp)
      have size'' := positive fourth (by simp)
      simp at truncated
      omega
  · cases truncated

/-- More text completes no fewer sequences. -/
theorem endsTruncated_append {first : Glyph} {rest : List Glyph}
    (whole : endsTruncated (first :: rest) = false) (after : List Glyph) :
    endsTruncated (first :: (rest ++ after)) = false := by
  unfold endsTruncated at whole ⊢
  dsimp only at whole ⊢
  split
  · rename_i lead isLead
    simp only [isLead, decide_eq_false_iff_not, Nat.not_lt] at whole ⊢
    refine whole.trans (Nat.add_le_add_left ?_ 1)
    have longer : rest.take 3 <+: (rest ++ after).take 3 := by
      rw [List.take_append]
      exact List.prefix_append _ _
    obtain ⟨more, same⟩ := longer
    rw [← same, List.flatMap_append, List.length_append]
    exact Nat.le_add_right _ _
  · rfl

/-- Glyphs before a newline are composed as they are alone, unless they end within a rune; then the
newline may make up for what is missing of it. -/
theorem composeFrom_newline {text : Bytes} {rest : List Glyph}
    (within : ∀ glyph ∈ rest, glyph ∈ glyphs text)
    (segment : List Glyph) {combining : Nat} (few : combining ≤ Segment.combiningLimit) :
    composeFrom segment combining (rest ++ glyphs [0x0A]) =
        composeFrom segment combining rest ++ glyphs [0x0A] ∨
      ∃ front first last lead, [first, last] <:+ rest ∧ first.bytes = [lead] ∧ 0xF0 ≤ lead ∧
        last.bytes.length = 2 ∧ composeFrom segment combining rest = front ++ [first, last] ∧
        composeFrom segment combining (rest ++ glyphs [0x0A]) =
          front ++ composeFrom [first] 0 [last] ++ glyphs [0x0A] := by
  have newline : ∀ glyph ∈ glyphs [0x0A], glyph.Inert := fun glyph member =>
    inert_of_single member (by rw [List.mem_singleton.mp member]; rfl)
  induction rest generalizing segment combining with
  | nil =>
      refine .inl ?_
      rw [List.nil_append, composeFrom_inert newline segment few, composeFrom]
  | cons glyph rest ih =>
      have all := within
      rw [List.forall_mem_cons] at within
      have behind : ∀ front segment combining, combining ≤ Segment.combiningLimit →
          front ++ composeFrom segment combining (rest ++ glyphs [0x0A]) =
              front ++ composeFrom segment combining rest ++ glyphs [0x0A] ∨
            ∃ front' first last lead, [first, last] <:+ glyph :: rest ∧ first.bytes = [lead] ∧
              0xF0 ≤ lead ∧ last.bytes.length = 2 ∧
              front ++ composeFrom segment combining rest = front' ++ [first, last] ∧
              front ++ composeFrom segment combining (rest ++ glyphs [0x0A]) =
                front' ++ composeFrom [first] 0 [last] ++ glyphs [0x0A] := by
        intro front segment combining few
        rcases ih within.2 segment few with
          same | ⟨front', first, last, lead, ends, isLead, large, two, whole, whole'⟩
        · exact .inl (by rw [same, List.append_assoc])
        · refine .inr ⟨front ++ front', first, last, lead,
            ends.trans (List.suffix_cons _ _), isLead,
            large, two, by rw [whole, List.append_assoc], ?_⟩
          rw [whole']
          simp only [List.append_assoc]
      have nonempty : ∀ glyph ∈ rest, glyph.bytes ≠ [] := by
        intro glyph member
        rcases regular_of_mem_glyphs (within.2 glyph member) with ⟨-, spelt⟩ | ⟨-, some, -⟩
        · simp [spelt]
        · exact some
      cases truncated : endsTruncated (glyph :: rest) with
      | true =>
          obtain ⟨lead, isLead, single | ⟨large, last, rfl, two⟩⟩ :=
            endsTruncated_cases nonempty truncated
          · refine .inl ?_
            have inert : ∀ other ∈ glyph :: rest, other.Inert := List.forall_mem_cons.mpr
              ⟨inert_of_single within.1 (by rw [isLead]; rfl),
                fun other member => inert_of_single (within.2 other member) (single other member)⟩
            rw [composeFrom_inert (List.forall_mem_append.mpr ⟨inert, newline⟩) segment few,
              composeFrom_inert inert segment few, List.append_assoc]
          · have enough : endsTruncated (glyph :: ([last] ++ glyphs [0x0A])) = false := by
              have most := (sequenceLength_le lead).1
              simp [endsTruncated, isLead, two, glyphs, glyphsAfter, Glyph.first]
              omega
            have inert := inert_of_single within.1 (by rw [isLead]; rfl)
            refine .inr ⟨Segment.compose segment.reverse, glyph, last, lead,
              List.suffix_refl _, isLead,
              large, two, by rw [composeFrom, truncated]; rfl, ?_⟩
            rw [List.cons_append, composeFrom, enough]
            simp only [Bool.false_eq_true, if_false, inert.ends, Nat.add_zero, Nat.not_lt.mpr few,
              beq_self_eq_true, if_true]
            rcases ih within.2 [glyph] (Nat.zero_le _) with same | ⟨_, _, _, _, ends, _⟩
            · rw [same, List.append_assoc]
            · exact absurd ends.length_le (by simp)
      | false =>
          have whole := endsTruncated_append truncated (glyphs [0x0A])
          obtain ⟨leading, trailing⟩ := Rune.combiningEnds_le glyph.rune
          rw [List.cons_append, composeFrom, composeFrom, truncated, whole]
          simp only [Bool.false_eq_true, if_false]
          split
          · exact behind _ _ _ leading
          · split
            · exact behind _ _ _ trailing
            · simpa using behind [] _ _ (by omega)

/-- The bytes at the end of a text that ends within a rune: a lead byte that asks for more bytes,
and behind it a rune instead. -/
structure Torn (lead : UInt8) (more : Bytes) : Prop where
  /-- The lead byte asks for three more bytes. -/
  lead_ge : 0xF0 ≤ lead
  /-- No byte behind it is one of ASCII. -/
  outside : ∀ byte ∈ more, 0x80 ≤ byte
  /-- The byte behind it does not continue it. -/
  begins : ∀ byte ∈ more.head?, Glyph.isContinuation byte = false

/-- **A newline is composed with nothing.**  The composed form of a text with a newline behind it is
that of the text and the newline, unless the text ends within a rune; then the forms agree up to
there, and what follows stays within the line. -/
theorem composed_newline (text : Bytes) :
    composed (text ++ [0x0A]) = composed text ++ [0x0A] ∨
      ∃ front lead more tail, Torn lead more ∧ OneLine tail ∧ composed text = front ++
        lead :: more ∧
        composed (text ++ [0x0A]) = front ++ tail ++ [0x0A] := by
  have all : ((text ++ [0x0A]).all fun byte => byte < 0x80) = text.all fun byte => byte < 0x80 := by
    rw [List.all_append]
    exact Bool.and_true _
  rw [composed, composed, all]
  split
  · exact .inl rfl
  · have split := glyphs_append_cons text [] (show Glyph.isContinuation 0x0A = false by decide)
    have newline : Glyph.text (glyphs [0x0A]) = [0x0A] := text_glyphs _
    rw [split]
    rcases composeFrom_newline (fun _ member => member : ∀ glyph ∈ glyphs text, _) []
        (Nat.zero_le _) with
          same | ⟨front, first, last, lead, ends, isLead, large, two, whole, whole'⟩
    · exact .inl (by rw [same, Glyph.text_append, newline])
    · have member : last ∈ glyphs text := ends.subset (by simp)
      have outside : ∀ byte ∈ last.bytes, 0x80 ≤ byte := by
        rcases regular_of_mem_glyphs member with ⟨-, spelt⟩ | ⟨-, -, outside⟩
        · simp [spelt] at two
        · exact outside
      have formed : last.isIllFormed = false := by
        unfold Glyph.isIllFormed
        split
        · rename_i spelt
          simp [spelt] at two
        · rfl
      obtain ⟨byte, more, spelt, begins⟩ := exists_lead_of_mem_glyphs member formed
      refine .inr ⟨Glyph.text front, lead, last.bytes, Glyph.text (composeFrom [first] 0 [last]),
        ⟨large, outside, by simpa [spelt] using begins⟩, ?_, ?_, ?_⟩
      · intro newline
        obtain ⟨glyph, composed, inside⟩ := List.mem_flatMap.mp newline
        refine oneLine_of_mem_composeFrom ?_ ?_ composed inside
        · rw [List.forall_mem_singleton]
          exact fun newline => absurd (outside _ newline) (by decide)
        · rw [List.forall_mem_singleton, isLead]
          rintro (_ | ⟨_, ⟨⟩⟩)
          exact absurd large (by decide)
      · rw [whole, Glyph.text_append, Glyph.text_cons, Glyph.text_cons, isLead, Glyph.text_nil,
          List.append_nil]
        rfl
      · rw [whole', Glyph.text_append, Glyph.text_append, newline]

end Bytes

end ScriptCompiler
