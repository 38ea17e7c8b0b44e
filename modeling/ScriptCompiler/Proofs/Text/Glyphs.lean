import Mathlib.Data.List.DropRight
import ScriptCompiler.Proofs.Syntax.Declared

/-!
# Glyphs and the bytes that spell them

The glyphs of a text spell the text again (`Glyph.text_glyphs`), a rune of ASCII is spelt by one
byte and any other rune by bytes outside ASCII (`Glyph.Regular`).  What a glyph is depends on its
own bytes and on nothing that is cut off behind it, so a run of neighbouring glyphs is read the same
way when it stands alone (`Legible.take`, `Legible.drop`).  A text is read the same way before
another text if it does not end in an ill-formed byte (`Bytes.glyphs_append`), or if the other text
begins with a byte that continues none (`Bytes.glyphs_append_cons`).
-/

namespace ScriptCompiler

namespace Glyph

/-- A glyph that spells a rune of ASCII by the byte of that number, or another rune by bytes that
are all outside ASCII. -/
def Regular (glyph : Glyph) : Prop :=
  glyph.rune < 0x80 ∧ glyph.bytes = [glyph.rune.toUInt8] ∨
    0x80 ≤ glyph.rune ∧ glyph.bytes ≠ [] ∧ ∀ byte ∈ glyph.bytes, 0x80 ≤ byte

/-- Spellings that are longer than needed are excluded by the second byte. -/
theorem isSecond_payload {lead second : UInt8} (holds : isSecond lead second = true)
    (least : lead = 0xE0 ∨ lead = 0xF0) : 16 ≤ payload second := by
  rcases least with rfl | rfl <;>
    simp [isSecond, UInt8.le_iff_toNat_le] at holds <;> unfold payload <;> omega

theorem first_regular (lead : UInt8) (rest : Bytes) : (first lead rest).Regular := by
  have continues : ∀ second : UInt8, isContinuation second = true → 0x80 ≤ second :=
    fun _ => isContinuation_ge
  have follows : ∀ second : UInt8, isSecond lead second = true → 0x80 ≤ second :=
    fun _ => isSecond_ge
  have large : ∀ second : UInt8, isSecond lead second = true →
      lead.toNat = 0xE0 ∨ lead.toNat = 0xF0 → 16 ≤ payload second :=
    fun _ holds least => isSecond_payload holds
      (least.imp (fun same => UInt8.toNat_inj.mp same) fun same => UInt8.toNat_inj.mp same)
  fun_cases first lead rest
  case case1 ascii => exact .inl ⟨UInt8.lt_iff_toNat_lt.mp ascii, by simp⟩
  all_goals
    refine .inr ⟨?_, by simp [illFormed], ?_⟩
    · simp only [illFormed, Rune.replacement, UInt8.lt_iff_toNat_lt, UInt8.toNat_ofNat, not_lt,
        Bool.and_eq_true] at *
      grind -ring -linarith
    · grind -ring -linarith [illFormed]

theorem first_bytes (lead : UInt8) (rest : Bytes) :
    (first lead rest).bytes = lead :: rest.take ((first lead rest).bytes.length - 1) := by
  fun_cases first lead rest <;> simp_all [illFormed]

/-- Bytes behind a glyph can be cut off without changing it. -/
theorem first_take {lead : UInt8} {rest : Bytes} {size : Nat}
    (enough : (first lead rest).bytes.length ≤ size + 1) :
    first lead (rest.take size) = first lead rest := by
  unfold first at enough ⊢
  rcases rest with _ | ⟨second, _ | ⟨third, _ | ⟨fourth, rest⟩⟩⟩ <;>
    rcases size with _ | _ | _ | size <;>
    simp only [List.take_succ_cons, List.take_zero, List.take_nil] at enough ⊢ <;>
    grind -ring -linarith [illFormed]

/-- A glyph that is well formed begins with a byte that continues none. -/
theorem not_isContinuation_of_first {lead : UInt8} {rest : Bytes}
    (formed : (first lead rest).isIllFormed = false) : isContinuation lead = false := by
  simp only [isContinuation, Bool.and_eq_false_iff, decide_eq_false_iff_not]
  unfold first at formed
  grind -ring -linarith [illFormed, isIllFormed]

theorem isContinuation_of_isSecond {lead second : UInt8} (holds : isSecond lead second = true) :
    isContinuation second = true := by
  simp only [isSecond, isContinuation, UInt8.le_iff_toNat_le, UInt8.toNat_ofNat] at holds ⊢
  grind

/-- Bytes behind a glyph do not change it, unless it is an ill-formed byte that they could
complete. -/
theorem first_append {lead : UInt8} {rest : Bytes} (after : Bytes)
    (settled : (first lead rest).isIllFormed = false ∨ ∃ byte ∈ rest, isContinuation byte = false) :
    first lead (rest ++ after) = first lead rest := by
  have follows : ∀ second : UInt8, isSecond lead second = true → isContinuation second = true :=
    fun _ => isContinuation_of_isSecond
  unfold first at settled ⊢
  rcases rest with _ | ⟨second, _ | ⟨third, _ | ⟨fourth, rest⟩⟩⟩ <;>
    simp only [List.nil_append, List.cons_append, List.mem_cons, List.not_mem_nil] at settled ⊢ <;>
    grind -ring -linarith [illFormed, isIllFormed]

/-- A byte that continues none does not complete what stands before it. -/
theorem first_append_cons (lead : UInt8) (rest : Bytes) {byte : UInt8} (after : Bytes)
    (begins : isContinuation byte = false) :
    first lead (rest ++ byte :: after) = first lead rest := by
  have follows : ∀ second : UInt8, isSecond lead second = true → isContinuation second = true :=
    fun _ => isContinuation_of_isSecond
  unfold first
  rcases rest with _ | ⟨second, _ | ⟨third, _ | ⟨fourth, rest⟩⟩⟩ <;>
    simp only [List.nil_append, List.cons_append] <;> grind -ring -linarith [illFormed]

theorem Regular.bytes_of_lt {glyph : Glyph} (regular : glyph.Regular) (ascii : glyph.rune < 0x80) :
    glyph.bytes = [glyph.rune.toUInt8] := by
  rcases regular with ⟨_, spelt⟩ | ⟨large, _⟩
  · exact spelt
  · exact absurd ascii (Nat.not_lt.mpr large)

theorem Regular.isIllFormed_of_lt {glyph : Glyph} (regular : glyph.Regular)
    (ascii : glyph.rune < 0x80) : glyph.isIllFormed = false := by
  have small : (glyph.rune.toUInt8).toNat = glyph.rune := by
    rw [Nat.toUInt8_eq, UInt8.toNat_ofNat_of_lt' (ascii.trans (by decide))]
  simp only [isIllFormed, regular.bytes_of_lt ascii, decide_eq_false_iff_not, UInt8.le_iff_toNat_le,
    small]
  simpa using ascii

@[simp]
theorem text_nil : text [] = [] := rfl

@[simp]
theorem text_cons (glyph : Glyph) (glyphs : List Glyph) :
    text (glyph :: glyphs) = glyph.bytes ++ text glyphs := rfl

@[simp]
theorem text_append (left right : List Glyph) : text (left ++ right) = text left ++ text right := by
  simp [text]

end Glyph

namespace Bytes

theorem glyphsAfter_eq (skipped : Nat) (text : Bytes) :
    glyphsAfter skipped text = glyphs (text.drop skipped) := by
  induction text generalizing skipped with
  | nil => simp [glyphs, glyphsAfter]
  | cons lead rest ih =>
      cases skipped with
      | zero => rfl
      | succ skipped => exact ih skipped

/-- The bytes of a nonempty text are those of its first glyph and those of the others. -/
theorem glyphs_cons {lead : UInt8} {more after : Bytes}
    (spelt : (Glyph.first lead (more ++ after)).bytes = lead :: more) :
    glyphs (lead :: (more ++ after)) = Glyph.first lead (more ++ after) :: glyphs after := by
  rw [glyphs, glyphsAfter, glyphsAfter_eq, spelt, List.length_cons, Nat.add_sub_cancel,
    List.drop_left]

/-- A text is empty, or it is a glyph and a text. -/
theorem glyphs_induction {motive : Bytes → Prop} (nil : motive [])
    (cons : ∀ lead more after, (Glyph.first lead (more ++ after)).bytes = lead :: more →
      motive after → motive (lead :: (more ++ after))) (text : Bytes) : motive text := by
  induction size : text.length using Nat.strong_induction_on generalizing text with
  | _ size ih =>
      subst size
      cases text with
      | nil => exact nil
      | cons lead rest =>
          have split := (List.take_append_drop ((Glyph.first lead rest).bytes.length - 1) rest).symm
          rw [split]
          refine cons _ _ _ ?_ (ih _ ?_ _ rfl)
          · rw [← split]
            exact Glyph.first_bytes lead rest
          · simp only [List.length_drop, List.length_cons]
            omega

theorem regular_of_mem_glyphs {text : Bytes} {glyph : Glyph} (member : glyph ∈ glyphs text) :
    glyph.Regular := by
  induction text using glyphs_induction with
  | nil => simp [glyphs, glyphsAfter] at member
  | cons lead more after spelt ih =>
      rw [glyphs_cons spelt, List.mem_cons] at member
      rcases member with rfl | later
      · exact Glyph.first_regular _ _
      · exact ih later

/-- The bytes of the glyphs of a text are the text again. -/
@[simp]
theorem text_glyphs (text : Bytes) : Glyph.text (glyphs text) = text := by
  induction text using glyphs_induction with
  | nil => rfl
  | cons lead more after spelt ih =>
      rw [glyphs_cons spelt, Glyph.text_cons, ih, spelt, List.cons_append]

/-- A glyph that is well formed begins with a byte that continues none. -/
theorem exists_of_mem_glyphs {text : Bytes} {glyph : Glyph} (member : glyph ∈ glyphs text)
    (formed : glyph.isIllFormed = false) : ∃ byte ∈ text, Glyph.isContinuation byte = false := by
  induction text using glyphs_induction with
  | nil => simp [glyphs, glyphsAfter] at member
  | cons lead more after spelt ih =>
      rw [glyphs_cons spelt, List.mem_cons] at member
      rcases member with rfl | later
      · exact ⟨lead, List.mem_cons_self, Glyph.not_isContinuation_of_first formed⟩
      · obtain ⟨byte, there, begins⟩ := ih later
        exact ⟨byte, by simp [there], begins⟩

/-- The first byte of a glyph that is well formed continues none. -/
theorem exists_lead_of_mem_glyphs {text : Bytes} {glyph : Glyph} (member : glyph ∈ glyphs text)
    (formed : glyph.isIllFormed = false) :
    ∃ lead more, glyph.bytes = lead :: more ∧ Glyph.isContinuation lead = false := by
  induction text using glyphs_induction with
  | nil => simp [glyphs, glyphsAfter] at member
  | cons lead more after spelt ih =>
      rw [glyphs_cons spelt, List.mem_cons] at member
      rcases member with rfl | later
      · exact ⟨lead, more, spelt, Glyph.not_isContinuation_of_first formed⟩
      · exact ih later

/-- An ill-formed byte reads as the replacement rune. -/
theorem rune_of_isIllFormed {text : Bytes} {glyph : Glyph} (member : glyph ∈ glyphs text)
    (broken : glyph.isIllFormed = true) : glyph.rune = Rune.replacement := by
  induction text using glyphs_induction with
  | nil => simp [glyphs, glyphsAfter] at member
  | cons lead more after spelt ih =>
      rw [glyphs_cons spelt, List.mem_cons] at member
      rcases member with rfl | later
      · generalize more ++ after = rest at broken ⊢
        unfold Glyph.first at broken ⊢
        grind -ring -linarith [Glyph.illFormed, Glyph.isIllFormed]
      · exact ih later

/-- A text that does not end in an ill-formed byte is read the same way before any other text. -/
theorem glyphs_append {front : Bytes} (after : Bytes)
    (settled : ∀ glyph ∈ (glyphs front).getLast?, glyph.isIllFormed = false) :
    glyphs (front ++ after) = glyphs front ++ glyphs after := by
  induction front using glyphs_induction with
  | nil => rfl
  | cons lead more rest spelt ih =>
      rw [glyphs_cons spelt] at settled ⊢
      have later : ∀ glyph ∈ (glyphs rest).getLast?, glyph.isIllFormed = false := by
        intro glyph last
        refine settled glyph ?_
        rw [List.getLast?_cons, Option.mem_def.mp last]
        rfl
      have stays : Glyph.first lead (more ++ rest ++ after) = Glyph.first lead (more ++ rest) := by
        refine Glyph.first_append after ?_
        rcases List.eq_nil_or_concat (glyphs rest) with none | ⟨others, last, some⟩
        · exact .inl (settled _ (by simp [none]))
        · have isLast : last ∈ glyphs rest := by simp [some]
          obtain ⟨byte, there, begins⟩ := exists_of_mem_glyphs isLast (later last (by simp [some]))
          exact .inr ⟨byte, List.mem_append_right more there, begins⟩
      rw [List.cons_append, List.append_assoc,
        glyphs_cons (by rw [← List.append_assoc, stays, spelt]),
        ih later, ← List.append_assoc, stays, List.cons_append]

/-- A text is read the same way before a byte that continues none. -/
theorem glyphs_append_cons (front : Bytes) {byte : UInt8} (after : Bytes)
    (begins : Glyph.isContinuation byte = false) :
    glyphs (front ++ byte :: after) = glyphs front ++ glyphs (byte :: after) := by
  induction front using glyphs_induction with
  | nil => rfl
  | cons lead more rest spelt ih =>
      have stays := Glyph.first_append_cons lead (more ++ rest) after begins
      rw [List.cons_append, List.append_assoc,
        glyphs_cons (by rw [← List.append_assoc, stays, spelt]), ih, ← List.append_assoc, stays,
        glyphs_cons spelt, List.cons_append]

/-- A text that begins with a byte of ASCII has that byte for its first glyph. -/
theorem glyphs_cons_ascii {byte : UInt8} (ascii : byte < 0x80) (rest : Bytes) :
    glyphs (byte :: rest) = ⟨byte.toNat, [byte]⟩ :: glyphs rest := by
  have isFirst : Glyph.first byte ([] ++ rest) = ⟨byte.toNat, [byte]⟩ := by
    simp [Glyph.first, ascii]
  have split := @glyphs_cons byte [] rest (by rw [isFirst])
  rwa [isFirst] at split

end Bytes

/-- Glyphs that are the reading of the text they spell. -/
def Legible (glyphs : List Glyph) : Prop := Bytes.glyphs (Glyph.text glyphs) = glyphs

namespace Legible

theorem ofText (text : Bytes) : Legible (Bytes.glyphs text) := by
  rw [Legible, Bytes.text_glyphs]

theorem regular {glyphs : List Glyph} (legible : Legible glyphs) {glyph : Glyph}
    (member : glyph ∈ glyphs) : glyph.Regular := by
  rw [← legible] at member
  exact Bytes.regular_of_mem_glyphs member

/-- The first of legible glyphs is read from its own bytes, and the others from what follows. -/
theorem cons_iff {glyph : Glyph} {glyphs : List Glyph} :
    Legible (glyph :: glyphs) ↔ ∃ lead more, glyph.bytes = lead :: more ∧
      Glyph.first lead (more ++ Glyph.text glyphs) = glyph ∧ Legible glyphs := by
  constructor
  · intro legible
    have nonempty : glyph.bytes ≠ [] := by
      rcases legible.regular List.mem_cons_self with ⟨_, spelt⟩ | ⟨_, spelt, _⟩
      · simp [spelt]
      · exact spelt
    obtain ⟨lead, more, spelt⟩ := List.exists_cons_of_ne_nil nonempty
    rw [Legible, Glyph.text_cons, spelt, List.cons_append, Bytes.glyphs, Bytes.glyphsAfter,
      Bytes.glyphsAfter_eq] at legible
    obtain ⟨first, later⟩ := List.cons.inj legible
    refine ⟨lead, more, spelt, first, ?_⟩
    rwa [first, spelt, List.length_cons, Nat.add_sub_cancel, List.drop_left] at later
  · rintro ⟨lead, more, spelt, first, later⟩
    rw [Legible, Glyph.text_cons, spelt, List.cons_append, Bytes.glyphs_cons (by rw [first, spelt]),
      first, later]

theorem drop {glyphs : List Glyph} (legible : Legible glyphs) (size : Nat) :
    Legible (glyphs.drop size) := by
  induction size generalizing glyphs with
  | zero => exact legible
  | succ size ih =>
      cases glyphs with
      | nil => exact legible
      | cons glyph glyphs =>
          obtain ⟨_, _, _, _, later⟩ := cons_iff.mp legible
          exact ih later

theorem take {glyphs : List Glyph} (legible : Legible glyphs) (size : Nat) :
    Legible (glyphs.take size) := by
  induction glyphs generalizing size with
  | nil => simpa using legible
  | cons glyph glyphs ih =>
      cases size with
      | zero => rfl
      | succ size =>
          obtain ⟨lead, more, spelt, first, later⟩ := cons_iff.mp legible
          refine cons_iff.mpr ⟨lead, more, spelt, ?_, ih later size⟩
          -- The text of fewer glyphs is the longer text cut off behind the first glyph.
          have cut : more ++ Glyph.text (glyphs.take size) <+: more ++ Glyph.text glyphs :=
            ⟨Glyph.text (glyphs.drop size), by
              rw [List.append_assoc, ← Glyph.text_append, List.take_append_drop]⟩
          rw [List.prefix_iff_eq_take.mp cut, Glyph.first_take, first]
          rw [first, spelt, List.length_cons, List.length_append]
          omega

/-- Where legible glyphs are split, their text is. -/
theorem of_append {front rest : List Glyph} (legible : Legible (front ++ rest)) :
    Legible front ∧ Legible rest := by
  constructor
  · simpa using legible.take front.length
  · simpa using legible.drop front.length

end Legible

end ScriptCompiler
