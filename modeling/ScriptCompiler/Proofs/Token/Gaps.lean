import ScriptCompiler.Proofs.Text.Glyphs

/-!
# Gaps between tokens

A gap is a run of blanks, of comments to the end of a line and of block comments, which nest
(`Gap.Fills`).  The scanner counts the comments that are open; here they are a grammar, in which a
block comment holds whole block comments (`Gap.Body`).  Skipping a gap stops right behind the
longest gap, or in front of a block comment that no text closes (`Gap.skip_reads`).
-/

namespace ScriptCompiler

/-! ### Marks of ASCII among glyphs -/

namespace Glyph

theorem Regular.ascii {glyph : Glyph} (regular : glyph.Regular) {byte : UInt8} (ascii : byte < 0x80)
    (same : glyph.rune = byte.toNat) : glyph.bytes = [byte] := by
  have small : byte.toNat < 0x80 := UInt8.lt_iff_toNat_lt.mp ascii
  rcases regular with ⟨_, spelt⟩ | ⟨large, _, _⟩
  · simp [spelt, same]
  · exact absurd small (Nat.not_lt.mpr (same ▸ large))

theorem Regular.rune {glyph : Glyph} (regular : glyph.Regular) {byte : UInt8} (ascii : byte < 0x80)
    (member : byte ∈ glyph.bytes) : glyph.rune = byte.toNat := by
  rcases regular with ⟨small, spelt⟩ | ⟨_, _, outside⟩
  · rw [spelt, List.mem_singleton] at member
    rw [member, Nat.toUInt8_eq, UInt8.toNat_ofNat_of_lt' (small.trans (by decide))]
  · exact absurd (outside byte member) (by simpa using ascii)

theorem Regular.exists_cons {glyph : Glyph} (regular : glyph.Regular) :
    ∃ byte bytes, glyph.bytes = byte :: bytes := by
  rcases regular with ⟨_, spelt⟩ | ⟨_, nonempty, _⟩
  · exact ⟨_, _, spelt⟩
  · exact List.exists_cons_of_ne_nil nonempty

/-- A byte of ASCII that a text begins with is its first glyph. -/
theorem singleton_prefix_text {glyphs : List Glyph} (regular : ∀ glyph ∈ glyphs, glyph.Regular)
    {byte : UInt8} (ascii : byte < 0x80) :
    [byte] <+: text glyphs ↔ ∃ glyph rest, glyphs = glyph :: rest ∧ glyph.rune = byte.toNat := by
  cases glyphs with
  | nil => simp
  | cons glyph rest =>
      have here := regular glyph List.mem_cons_self
      constructor
      · intro begins
        obtain ⟨lead, bytes, spelt⟩ := here.exists_cons
        rw [text_cons, spelt, List.cons_append, List.cons_prefix_cons] at begins
        refine ⟨glyph, rest, rfl, here.rune ascii ?_⟩
        simp [spelt, begins.1]
      · rintro ⟨_, _, same, rune⟩
        cases same
        rw [text_cons, here.ascii ascii rune]
        exact List.prefix_append _ _

/-- Two bytes of ASCII that a text begins with are its first two glyphs. -/
theorem pair_prefix_text {glyphs : List Glyph} (regular : ∀ glyph ∈ glyphs, glyph.Regular)
    {first second : UInt8} (ascii : first < 0x80) (ascii' : second < 0x80) :
    [first, second] <+: text glyphs ↔ ∃ glyph next rest, glyphs = glyph :: next :: rest ∧
      glyph.rune = first.toNat ∧ next.rune = second.toNat := by
  constructor
  · intro begins
    have lead : [first] <+: text glyphs := (List.prefix_append [first] [second]).trans begins
    obtain ⟨glyph, rest, rfl, rune⟩ := (singleton_prefix_text regular ascii).mp lead
    rw [text_cons, (regular glyph List.mem_cons_self).ascii ascii rune, List.singleton_append,
      List.cons_prefix_cons] at begins
    obtain ⟨next, rest, rfl, rune'⟩ := (singleton_prefix_text
      (fun glyph member => regular glyph (List.mem_cons_of_mem _ member)) ascii').mp begins.2
    exact ⟨glyph, next, rest, rfl, rune, rune'⟩
  · rintro ⟨glyph, next, rest, rfl, rune, rune'⟩
    have spelt := (regular glyph (by simp)).ascii ascii rune
    have spelt' := (regular next (by simp)).ascii ascii' rune'
    rw [text_cons, text_cons, spelt, spelt']
    exact List.prefix_append [first, second] _

end Glyph

namespace Gap

/-- The mark that opens a block comment. -/
def opening : Bytes := [0x2F, 0x2A]

/-- The mark that closes a block comment. -/
def closing : Bytes := [0x2A, 0x2F]

/-- The mark that begins a comment to the end of the line. -/
def lineMark : Bytes := [0x2F, 0x2F]

/-- What stands between the marks of a block comment: whole block comments, and bytes at which no
mark begins. -/
inductive Body : Bytes → Prop where
  /-- Nothing. -/
  | nil : Body []
  /-- A comment in the comment. -/
  | comment {inner rest : Bytes} : Body inner → Body rest →
      Body (opening ++ inner ++ closing ++ rest)
  /-- A byte that begins no mark, read on to the mark that closes the comment. -/
  | byte {byte : UInt8} {rest : Bytes} : ¬ opening <+: byte :: (rest ++ closing) →
      ¬ closing <+: byte :: (rest ++ closing) → Body rest → Body (byte :: rest)

/-- The gaps that may stand before the text `after`. -/
inductive Fills (after : Bytes) : Bytes → Prop where
  /-- Nothing. -/
  | nil : Fills after []
  /-- A blank. -/
  | blank {byte : UInt8} {rest : Bytes} : isBlank byte.toNat = true → Fills after rest →
      Fills after (byte :: rest)
  /-- A comment up to the end of the line or of the text. -/
  | line {comment rest : Bytes} : 0x0A ∉ comment → (∀ byte ∈ (rest ++ after).head?, byte = 0x0A) →
      Fills after rest → Fills after (lineMark ++ comment ++ rest)
  /-- A block comment. -/
  | block {body rest : Bytes} : Body body → Fills after rest →
      Fills after (opening ++ body ++ closing ++ rest)

/-- A text that closes so many comments and the one around them. -/
def Closes : Nat → Bytes → Prop
  | 0, text => ∃ body, Body body ∧ text = body ++ closing
  | inner + 1, text => ∃ body rest, Body body ∧ Closes inner rest ∧ text = body ++ closing ++ rest

/-- What is skipped of a gap from a state on. -/
def Skips (after : Bytes) : State → Bytes → Prop
  | .between, text => Fills after text
  | .line, text => ∃ comment rest, text = comment ++ rest ∧ 0x0A ∉ comment ∧
      (∀ byte ∈ (rest ++ after).head?, byte = 0x0A) ∧ Fills after rest
  | .block _ inner, text =>
      ∃ front rest, text = front ++ rest ∧ Closes inner front ∧ Fills after rest

/-- A text in which the comment that it begins with has no end. -/
def Unclosed (text : Bytes) : Prop :=
  ∃ inside, text = opening ++ inside ∧ ∀ body after, Body body → inside ≠ body ++ closing ++ after

/-- A text with which a gap goes on. -/
def Begins (text : Bytes) : Prop :=
  (∃ byte ∈ text.head?, isBlank byte.toNat = true) ∨ lineMark <+: text ∨ opening <+: text

/-- What an ending says of the glyphs that were skipped, from a state on and with so many glyphs
skipped before. -/
def Ending.Reads (state : State) (size : Nat) (glyphs : List Glyph) : Ending → Prop
  | .closed final => ∃ skipped rest, glyphs = skipped ++ rest ∧ final = size + skipped.length ∧
      Skips (Glyph.text rest) state (Glyph.text skipped) ∧ ¬ Begins (Glyph.text rest)
  | .unclosed start =>
      (∃ inner, state = .block start inner ∧
        ∀ front after, Closes inner front → Glyph.text glyphs ≠ front ++ after) ∨
      ∃ skipped rest, glyphs = skipped ++ rest ∧ start = size + skipped.length ∧
        Skips (Glyph.text rest) state (Glyph.text skipped) ∧ Unclosed (Glyph.text rest)

/-! ### Comments by the number that is open -/

namespace Closes

theorem inside {inner : Nat} {front : Bytes} (closes : Closes (inner + 1) front) :
    Closes inner (opening ++ front) := by
  obtain ⟨body, rest, isBody, closes, rfl⟩ := closes
  cases inner with
  | zero =>
      obtain ⟨body', isBody', rfl⟩ := closes
      exact ⟨_, isBody.comment isBody', by simp⟩
  | succ inner =>
      obtain ⟨body', rest', isBody', closes', rfl⟩ := closes
      exact ⟨_, rest', isBody.comment isBody', closes', by simp⟩

theorem last : Closes 0 closing := ⟨[], .nil, rfl⟩

theorem outside {inner : Nat} {front : Bytes} (closes : Closes inner front) :
    Closes (inner + 1) (closing ++ front) := ⟨[], front, .nil, closes, rfl⟩

theorem cons {inner : Nat} {front : Bytes} {byte : UInt8} (opens : ¬ opening <+: byte :: front)
    (ends : ¬ closing <+: byte :: front) (closes : Closes inner front) :
    Closes inner (byte :: front) := by
  cases inner with
  | zero =>
      obtain ⟨body, isBody, rfl⟩ := closes
      exact ⟨byte :: body, .byte opens ends isBody, rfl⟩
  | succ inner =>
      obtain ⟨body, rest, isBody, closes, rfl⟩ := closes
      have shorter : byte :: (body ++ closing) <+: byte :: (body ++ closing ++ rest) :=
        List.prefix_append (byte :: (body ++ closing)) rest
      exact ⟨byte :: body, rest, .byte (fun begins => opens (begins.trans shorter))
        (fun begins => ends (begins.trans shorter)) isBody, closes, rfl⟩

/-- What a text that closes comments begins with. -/
theorem cases {inner : Nat} {front : Bytes} (closes : Closes inner front) :
    (∃ rest, front = opening ++ rest ∧ Closes (inner + 1) rest) ∨
    (inner = 0 ∧ front = closing) ∨
    (∃ outer rest, inner = outer + 1 ∧ front = closing ++ rest ∧ Closes outer rest) ∨
    ∃ byte rest, front = byte :: rest ∧ ¬ opening <+: front ∧ ¬ closing <+: front ∧
      Closes inner rest := by
  have split : ∃ body tail, Body body ∧ front = body ++ closing ++ tail ∧
      (inner = 0 ∧ tail = [] ∨ ∃ outer, inner = outer + 1 ∧ Closes outer tail) := by
    cases inner with
    | zero =>
        obtain ⟨body, isBody, rfl⟩ := closes
        exact ⟨body, [], isBody, by simp, .inl ⟨rfl, rfl⟩⟩
    | succ outer =>
        obtain ⟨body, tail, isBody, others, rfl⟩ := closes
        exact ⟨body, tail, isBody, rfl, .inr ⟨outer, rfl, others⟩⟩
  obtain ⟨body, tail, isBody, rfl, others⟩ := split
  have behind : ∀ {rest : Bytes}, Body rest → Closes inner (rest ++ closing ++ tail) := by
    intro rest isRest
    rcases others with ⟨rfl, rfl⟩ | ⟨outer, rfl, others⟩
    · exact ⟨rest, isRest, by simp⟩
    · exact ⟨rest, tail, isRest, others, rfl⟩
  cases isBody with
  | nil =>
      rcases others with ⟨rfl, rfl⟩ | ⟨outer, rfl, others⟩
      · exact .inr (.inl ⟨rfl, rfl⟩)
      · exact .inr (.inr (.inl ⟨outer, tail, rfl, rfl, others⟩))
  | @comment body rest isBody isRest =>
      exact .inl ⟨body ++ closing ++ (rest ++ closing ++ tail), by simp,
        body, _, isBody, behind isRest, rfl⟩
  | @byte byte rest opens ends isRest =>
      -- Two bytes decide, and the mark behind the body has two.
      have longer : ∀ mark : Bytes, mark.length = 2 →
          mark <+: byte :: rest ++ closing ++ tail → mark <+: byte :: (rest ++ closing) :=
        fun mark size begins => List.prefix_of_prefix_length_le begins
          (List.prefix_append (byte :: (rest ++ closing)) tail) (by simp [size, closing])
      exact .inr (.inr (.inr ⟨byte, rest ++ closing ++ tail, rfl,
        fun begins => opens (longer _ rfl begins), fun begins => ends (longer _ rfl begins),
        behind isRest⟩))

/-- No mark of ASCII begins with a byte outside it. -/
theorem not_pair_begins {byte first second : UInt8} {rest : Bytes} (outside : 0x80 ≤ byte)
    (ascii : first < 0x80) : ¬ [first, second] <+: byte :: rest := by
  intro begins
  rw [← (List.cons_prefix_cons.mp begins).1] at outside
  exact absurd outside (by simpa using ascii)

/-- A glyph at which no mark begins stands before what closes comments. -/
theorem append {inner : Nat} {front : Bytes} {glyph : Glyph} (regular : glyph.Regular)
    (opens : ¬ opening <+: glyph.bytes ++ front) (ends : ¬ closing <+: glyph.bytes ++ front)
    (closes : Closes inner front) : Closes inner (glyph.bytes ++ front) := by
  rcases regular with ⟨_, spelt⟩ | ⟨_, _, outside⟩
  · rw [spelt] at opens ends ⊢
    exact closes.cons opens ends
  · clear opens ends
    generalize glyph.bytes = bytes at outside ⊢
    induction bytes with
    | nil => exact closes
    | cons byte bytes ih =>
        rw [List.forall_mem_cons] at outside
        exact cons (not_pair_begins outside.1 (by decide)) (not_pair_begins outside.1 (by decide))
          (ih outside.2)

theorem of_cons {inner : Nat} {front after text : Bytes} {byte : UInt8}
    (opens : ¬ opening <+: byte :: text) (ends : ¬ closing <+: byte :: text)
    (closes : Closes inner front) (same : byte :: text = front ++ after) :
    ∃ rest, Closes inner rest ∧ text = rest ++ after := by
  rw [same] at opens ends
  rcases closes.cases with
    ⟨rest, rfl, _⟩ | ⟨_, rfl⟩ | ⟨_, rest, _, rfl, _⟩ | ⟨_, rest, rfl, _, _, closes⟩
  · exact absurd (by simp) opens
  · exact absurd (by simp) ends
  · exact absurd (by simp) ends
  · exact ⟨rest, closes, (List.cons.inj same).2⟩

/-- A text that closes a comment ends with the mark. -/
theorem suffix {inner : Nat} {front : Bytes} (closes : Closes inner front) : closing <:+ front := by
  induction inner generalizing front with
  | zero =>
      obtain ⟨body, _, rfl⟩ := closes
      exact List.suffix_append body closing
  | succ inner ih =>
      obtain ⟨body, rest, _, closes, rfl⟩ := closes
      exact (ih closes).trans (List.suffix_append _ rest)

/-- A mark that stands at the beginning of what closes a comment belongs to it. -/
theorem mark_begins {inner : Nat} {front after mark text : Bytes} (closes : Closes inner front)
    (size : mark.length = 2) (same : mark ++ text = front ++ after) : mark <+: front := by
  refine List.prefix_of_prefix_length_le (List.prefix_append mark text)
    (same ▸ List.prefix_append front after) ?_
  rw [size]
  exact closes.suffix.length_le

theorem of_opening {inner : Nat} {front after text : Bytes} (closes : Closes inner front)
    (same : opening ++ text = front ++ after) :
    ∃ rest, Closes (inner + 1) rest ∧ text = rest ++ after := by
  have begins := closes.mark_begins rfl same
  rcases closes.cases with
    ⟨rest, rfl, deeper⟩ | ⟨_, rfl⟩ | ⟨_, rest, _, rfl, _⟩ | ⟨_, _, _, opens, _, _⟩
  · exact ⟨rest, deeper, by simpa [opening] using same⟩
  · exact absurd begins (by decide)
  · simp [opening, closing] at begins
  · exact absurd begins opens

theorem of_closing {outer : Nat} {front after text : Bytes} (closes : Closes (outer + 1) front)
    (same : closing ++ text = front ++ after) :
    ∃ rest, Closes outer rest ∧ text = rest ++ after := by
  have begins := closes.mark_begins rfl same
  rcases closes.cases with
    ⟨rest, rfl, _⟩ | ⟨_, _⟩ | ⟨_, rest, ⟨⟩, rfl, others⟩ | ⟨_, _, _, _, ends, _⟩
  · simp [opening, closing] at begins
  · contradiction
  · exact ⟨rest, others, by simpa [closing] using same⟩
  · exact absurd begins ends

theorem of_append {inner : Nat} {front after text : Bytes} {glyph : Glyph} (regular : glyph.Regular)
    (opens : ¬ opening <+: glyph.bytes ++ text) (ends : ¬ closing <+: glyph.bytes ++ text)
    (closes : Closes inner front) (same : glyph.bytes ++ text = front ++ after) :
    ∃ rest, Closes inner rest ∧ text = rest ++ after := by
  rcases regular with ⟨_, spelt⟩ | ⟨_, _, outside⟩
  · rw [spelt] at opens ends same
    exact closes.of_cons opens ends same
  · clear opens ends
    generalize glyph.bytes = bytes at outside same
    induction bytes generalizing front with
    | nil => exact ⟨front, closes, same⟩
    | cons byte bytes ih =>
        rw [List.forall_mem_cons] at outside
        obtain ⟨rest, closes, same⟩ := closes.of_cons (not_pair_begins outside.1 (by decide))
          (not_pair_begins outside.1 (by decide)) same
        exact ih closes outside.2 same

end Closes

/-- Glyphs that lead from one state to another stand before what the other state reads. -/
theorem Ending.Reads.after {state later : State} {size : Nat} {glyphs : List Glyph}
    {ending : Ending} (taken : List Glyph)
    (skips : ∀ skipped rest, glyphs = skipped ++ rest →
      Skips (Glyph.text rest) later (Glyph.text skipped) →
      Skips (Glyph.text rest) state (Glyph.text taken ++ Glyph.text skipped))
    (stays : ∀ start inner, later = .block start inner →
      (∀ front after, Closes inner front → Glyph.text glyphs ≠ front ++ after) →
      Reads state size (taken ++ glyphs) (.unclosed start))
    (reads : ending.Reads later (size + taken.length) glyphs) :
    ending.Reads state size (taken ++ glyphs) := by
  cases ending with
  | closed final =>
      obtain ⟨skipped, rest, rfl, rfl, fills, ends⟩ := reads
      exact ⟨taken ++ skipped, rest, by simp, by simp [Nat.add_assoc],
        by simpa using skips _ _ rfl fills, ends⟩
  | unclosed start =>
      rcases reads with ⟨inner, isBlock, unclosed⟩ | ⟨skipped, rest, rfl, rfl, fills, unclosed⟩
      · exact stays start inner isBlock unclosed
      · exact .inr ⟨taken ++ skipped, rest, by simp, by simp [Nat.add_assoc],
          by simpa using skips _ _ rfl fills, unclosed⟩

theorem byte_ascii {byte : UInt8} (blank : isBlank byte.toNat = true) : byte < 0x80 := by
  simp only [isBlank, Bool.or_eq_true, beq_iff_eq] at blank
  rw [UInt8.lt_iff_toNat_lt]
  rcases blank with ((same | same) | same) | same <;> rw [same] <;> decide

theorem not_begins {glyphs : List Glyph} (regular : ∀ glyph ∈ glyphs, glyph.Regular)
    (blank : ∀ glyph ∈ glyphs.head?, isBlank glyph.rune = false)
    (marks : ∀ glyph next rest, glyphs = glyph :: next :: rest → glyph.rune = 0x2F →
      next.rune ≠ 0x2F ∧ next.rune ≠ 0x2A) : ¬ Begins (Glyph.text glyphs) := by
  rintro (⟨byte, head, isBlank⟩ | begins | begins)
  · have first : [byte] <+: Glyph.text glyphs := by
      obtain ⟨later, split⟩ := List.head?_eq_some_iff.mp head
      exact ⟨later, split.symm⟩
    have ascii := byte_ascii isBlank
    obtain ⟨glyph, rest, rfl, rune⟩ := (Glyph.singleton_prefix_text regular ascii).mp first
    rw [← rune, blank glyph rfl] at isBlank
    cases isBlank
  · obtain ⟨glyph, next, rest, rfl, rune, rune'⟩ :=
      (Glyph.pair_prefix_text regular (by decide) (by decide)).mp begins
    exact (marks _ _ _ rfl rune).1 rune'
  · obtain ⟨glyph, next, rest, rfl, rune, rune'⟩ :=
      (Glyph.pair_prefix_text regular (by decide) (by decide)).mp begins
    exact (marks _ _ _ rfl rune).2 rune'

/-- Two glyphs whose runes make up a mark are the mark. -/
theorem text_pair {glyph next : Glyph} {rest : List Glyph}
    (regular : ∀ other ∈ glyph :: next :: rest, other.Regular) {first second : UInt8}
    (ascii : first < 0x80) (ascii' : second < 0x80)
    (marks : (glyph.rune == first.toNat && next.rune == second.toNat) = true) :
    Glyph.text [glyph, next] = [first, second] := by
  simp only [Bool.and_eq_true, beq_iff_eq] at marks
  simp [(regular glyph (by simp)).ascii ascii marks.1,
    (regular next (by simp)).ascii ascii' marks.2]

/-- Two glyphs whose runes do not make up a mark do not begin with it. -/
theorem not_pair_begins_text {glyph next : Glyph} {rest : List Glyph}
    (regular : ∀ other ∈ glyph :: next :: rest, other.Regular) {first second : UInt8}
    (ascii : first < 0x80) (ascii' : second < 0x80)
    (marks : ¬ (glyph.rune == first.toNat && next.rune == second.toNat) = true) :
    ¬ [first, second] <+: glyph.bytes ++ Glyph.text (next :: rest) := by
  intro begins
  obtain ⟨_, _, _, same, rune, rune'⟩ := (Glyph.pair_prefix_text regular ascii ascii').mp begins
  cases same
  simp [rune, rune'] at marks

theorem text_blank {glyph : Glyph} (regular : glyph.Regular) (blank : isBlank glyph.rune = true) :
    ∃ byte : UInt8, glyph.bytes = [byte] ∧ isBlank byte.toNat = true := by
  rcases regular with ⟨small, spelt⟩ | ⟨large, _, _⟩
  · refine ⟨_, spelt, ?_⟩
    rwa [Nat.toUInt8_eq, UInt8.toNat_ofNat_of_lt' (small.trans (by decide))]
  · simp only [isBlank, Bool.or_eq_true, beq_iff_eq] at blank
    rcases blank with ((same | same) | same) | same <;> rw [same] at large <;>
      exact absurd large (by decide)

/-! ### One step through a gap -/

namespace Ending.Reads

variable {size : Nat} {glyph next : Glyph} {rest : List Glyph} {ending : Ending}

section Between

theorem blank (regular : glyph.Regular) (blank : isBlank glyph.rune = true)
    (reads : ending.Reads .between (size + 1) rest) :
    ending.Reads .between size (glyph :: rest) := by
  obtain ⟨byte, spelt, blank⟩ := text_blank regular blank
  refine .after [glyph] ?_ (by rintro _ _ ⟨⟩) reads
  intro skipped rest _ fills
  rw [Glyph.text_cons, spelt]
  exact .blank blank fills

theorem line (spelt : Glyph.text [glyph, next] = lineMark)
    (reads : ending.Reads .line (size + 2) rest) :
    ending.Reads .between size (glyph :: next :: rest) := by
  refine .after [glyph, next] ?_ (by rintro _ _ ⟨⟩) reads
  rintro skipped rest rfl ⟨comment, others, same, inLine, ends, fills⟩
  rw [same, spelt, ← List.append_assoc]
  exact fills.line inLine ends

/-- A block comment that is not closed makes the gap stop in front of it. -/
theorem block (spelt : Glyph.text [glyph, next] = opening)
    (reads : ending.Reads (.block size 0) (size + 2) rest) :
    ending.Reads .between size (glyph :: next :: rest) := by
  refine .after [glyph, next] ?_ ?_ reads
  · rintro skipped rest rfl ⟨_, others, same, ⟨body, isBody, rfl⟩, fills⟩
    rw [same, spelt, ← List.append_assoc, ← List.append_assoc]
    exact fills.block isBody
  · rintro _ _ ⟨⟩ unclosed
    refine .inr ⟨[], _, rfl, rfl, .nil, Glyph.text rest, ?_, ?_⟩
    · rw [← spelt, ← Glyph.text_append]
      rfl
    · exact fun body after isBody => unclosed _ after ⟨body, isBody, rfl⟩

end Between

section Line

theorem newline (spelt : glyph.bytes = [0x0A]) (reads : ending.Reads .between (size + 1) rest) :
    ending.Reads .line size (glyph :: rest) := by
  refine .after [glyph] ?_ (by rintro _ _ ⟨⟩) reads
  rintro skipped rest rfl fills
  refine ⟨[], _, rfl, by simp, by simp [spelt], ?_⟩
  rw [Glyph.text_cons, spelt]
  exact .blank (by decide) fills

theorem comment (inLine : 0x0A ∉ glyph.bytes) (reads : ending.Reads .line (size + 1) rest) :
    ending.Reads .line size (glyph :: rest) := by
  refine .after [glyph] ?_ (by rintro _ _ ⟨⟩) reads
  rintro skipped rest rfl ⟨comment, others, same, goesOn, ends, fills⟩
  refine ⟨glyph.bytes ++ comment, others, by simp [same], ?_, ends, fills⟩
  exact fun member => (List.mem_append.mp member).elim inLine goesOn

end Line

section Block

variable {start inner : Nat}

/-- In a text that is too short to hold the mark, a comment is not closed. -/
theorem short (regular : ∀ glyph ∈ rest, glyph.Regular) (few : rest.length ≤ 1) :
    Reads (.block start inner) size rest (.unclosed start) := by
  refine .inl ⟨inner, rfl, fun front after closes same => ?_⟩
  -- A glyph with a byte of the mark is that byte alone.
  have within : ∀ byte ∈ closing, byte ∈ Glyph.text rest := fun byte member =>
    same ▸ List.mem_append_left _ (closes.suffix.subset member)
  match rest with
  | [] => exact absurd (within 0x2A (by decide)) List.not_mem_nil
  | [glyph] =>
      rw [Glyph.text_cons, Glyph.text_nil, List.append_nil] at within
      have here := regular glyph List.mem_cons_self
      have star := here.rune (by decide) (within 0x2A (by decide))
      have slash := here.rune (by decide) (within 0x2F (by decide))
      exact absurd (star.symm.trans slash) (by decide)

theorem deeper (spelt : Glyph.text [glyph, next] = opening)
    (reads : ending.Reads (.block start (inner + 1)) (size + 2) rest) :
    ending.Reads (.block start inner) size (glyph :: next :: rest) := by
  refine .after [glyph, next] ?_ ?_ reads
  · rintro skipped rest rfl ⟨front, others, same, closes, fills⟩
    exact ⟨_, others, by rw [same, spelt, ← List.append_assoc], closes.inside, fills⟩
  · rintro _ _ ⟨⟩ unclosed
    refine .inl ⟨inner, rfl, fun front after closes same => ?_⟩
    rw [Glyph.text_append, spelt] at same
    obtain ⟨deeper, closes, same⟩ := closes.of_opening same
    exact unclosed deeper after closes same

/-- The mark behind which no comment is open any more. -/
theorem last (spelt : Glyph.text [glyph, next] = closing)
    (reads : ending.Reads .between (size + 2) rest) :
    ending.Reads (.block start 0) size (glyph :: next :: rest) := by
  refine .after [glyph, next] ?_ (by rintro _ _ ⟨⟩) reads
  rintro skipped rest rfl fills
  exact ⟨closing, _, by rw [spelt], .last, fills⟩

theorem outer (spelt : Glyph.text [glyph, next] = closing)
    (reads : ending.Reads (.block start inner) (size + 2) rest) :
    ending.Reads (.block start (inner + 1)) size (glyph :: next :: rest) := by
  refine .after [glyph, next] ?_ ?_ reads
  · rintro skipped rest rfl ⟨front, others, same, closes, fills⟩
    exact ⟨_, others, by rw [same, spelt, ← List.append_assoc], closes.outside, fills⟩
  · rintro _ _ ⟨⟩ unclosed
    refine .inl ⟨inner + 1, rfl, fun front after closes same => ?_⟩
    rw [Glyph.text_append, spelt] at same
    obtain ⟨others, closes, same⟩ := closes.of_closing same
    exact unclosed others after closes same

/-- A glyph at which no mark begins. -/
theorem inside (regular : glyph.Regular) (opens : ¬ opening <+: glyph.bytes ++ Glyph.text rest)
    (ends : ¬ closing <+: glyph.bytes ++ Glyph.text rest)
    (reads : ending.Reads (.block start inner) (size + 1) rest) :
    ending.Reads (.block start inner) size (glyph :: rest) := by
  refine .after [glyph] ?_ ?_ reads
  · rintro skipped later split ⟨front, others, same, closes, fills⟩
    have shorter : glyph.bytes ++ front <+: glyph.bytes ++ Glyph.text rest :=
      ⟨others ++ Glyph.text later, by rw [split, Glyph.text_append, same]; simp⟩
    exact ⟨glyph.bytes ++ front, others, by simp [same],
      closes.append regular (fun begins => opens (begins.trans shorter))
        (fun begins => ends (begins.trans shorter)), fills⟩
  · rintro _ _ ⟨⟩ unclosed
    refine .inl ⟨inner, rfl, fun front after closes same => ?_⟩
    obtain ⟨rest, closes, same⟩ := closes.of_append regular opens ends same
    exact unclosed rest after closes same

end Block

end Ending.Reads

/-- Skipping a gap reads what its grammar says, from any state on. -/
theorem skip_reads (state : State) (size : Nat) {glyphs : List Glyph}
    (regular : ∀ glyph ∈ glyphs, glyph.Regular) :
    (skip state size glyphs).Reads state size glyphs := by
  fun_induction skip state size glyphs with
  | case1 size => exact ⟨[], [], rfl, rfl, .nil, not_begins regular (by simp) (by simp)⟩
  | case2 size glyph blank =>
      exact Ending.Reads.blank (regular glyph List.mem_cons_self) blank
        ⟨[], [], rfl, rfl, .nil, not_begins (by simp) (by simp) (by simp)⟩
  | case3 size glyph solid =>
      exact ⟨[], [glyph], rfl, rfl, .nil, not_begins regular (by simpa using solid) (by simp)⟩
  | case4 size glyph next rest blank ih =>
      exact (ih fun other member => regular other (.tail _ member)).blank
        (regular glyph List.mem_cons_self) blank
  | case5 size glyph next rest solid marks ih =>
      exact (ih fun other member => regular other (.tail _ (.tail _ member))).line
        (text_pair regular (by decide) (by decide) marks)
  | case6 size glyph next rest solid noLine marks ih =>
      exact (ih fun other member => regular other (.tail _ (.tail _ member))).block
        (text_pair regular (by decide) (by decide) marks)
  | case7 size glyph next rest solid noLine noBlock =>
      refine ⟨[], glyph :: next :: rest, rfl, rfl, .nil,
        not_begins regular (by simpa using solid) ?_⟩
      rintro _ _ _ ⟨⟩ rune
      simp_all
  | case8 size =>
      exact ⟨[], [], rfl, rfl, ⟨[], [], rfl, by simp, by simp, .nil⟩,
        not_begins regular (by simp) (by simp)⟩
  | case9 size glyph rest newline ih =>
      exact (ih fun other member => regular other (.tail _ member)).newline
        ((regular glyph List.mem_cons_self).ascii (by decide) (by simpa using newline))
  | case10 size glyph rest inLine ih =>
      refine (ih fun other member => regular other (.tail _ member)).comment fun member => inLine ?_
      simp [(regular glyph List.mem_cons_self).rune (by decide) member]
  | case11 start inner size => exact .short regular (Nat.zero_le _)
  | case12 start inner size glyph => exact .short regular (Nat.le_refl _)
  | case13 start inner size glyph next rest marks ih =>
      exact (ih fun other member => regular other (.tail _ (.tail _ member))).deeper
        (text_pair regular (by decide) (by decide) marks)
  | case14 start size glyph next rest noOpen marks ih =>
      exact (ih fun other member => regular other (.tail _ (.tail _ member))).last
        (text_pair regular (by decide) (by decide) marks)
  | case15 start size glyph next rest noOpen marks outer ih =>
      exact (ih fun other member => regular other (.tail _ (.tail _ member))).outer
        (text_pair regular (by decide) (by decide) marks)
  | case16 start inner size glyph next rest noOpen noClose ih =>
      exact (ih fun other member => regular other (.tail _ member)).inside
        (regular glyph List.mem_cons_self)
        (not_pair_begins_text regular (by decide) (by decide) noOpen)
        (not_pair_begins_text regular (by decide) (by decide) noClose)

end Gap

end ScriptCompiler
