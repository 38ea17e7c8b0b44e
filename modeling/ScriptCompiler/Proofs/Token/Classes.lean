import Mathlib.Tactic.IntervalCases
import ScriptCompiler.Proofs.Token.Tiling

/-!
# Classes of tokens

What a token is, said of its text alone: reserved words and identifiers, whole and fractional
numbers, string literals, and the marks of the token table.  Where some token of these classes
begins a text, the scanner reads a token, and no token of any class that begins the text is longer
(`Lexeme.read_longest`, `Lexeme.read_stuck`).
-/

namespace ScriptCompiler

/-- The operators and punctuation marks. -/
def TokenKind.marks : List TokenKind :=
  [.plus, .minus, .star, .slash, .percent, .equal, .notEqual, .less, .lessEqual, .greater,
    .greaterEqual, .bothAnd, .eitherOr, .bang, .assign, .plusAssign, .minusAssign, .starAssign,
    .slashAssign, .leftParen, .rightParen, .leftBrace, .rightBrace, .comma, .semicolon, .colon]

namespace Lexeme

/-- The runes of a word: a letter or an underscore, and then letters, underscores and digits. -/
def IsWord : List Rune → Prop
  | [] => False
  | first :: others => isWordStart first = true ∧ ∀ rune ∈ others, isWordPart rune = true

/-- One digit or more. -/
def IsDigits (runes : List Rune) : Prop := runes ≠ [] ∧ ∀ rune ∈ runes, Rune.isDigit rune = true

/-- A point and digits. -/
def IsFraction (runes : List Rune) : Prop := ∃ digits, runes = 0x2E :: digits ∧ IsDigits digits

/-- The letter e, small or capital, then perhaps a sign, then digits. -/
def IsExponent (runes : List Rune) : Prop :=
  ∃ mark sign digits, runes = mark :: (sign ++ digits) ∧ (mark = 0x65 ∨ mark = 0x45) ∧
    (sign = [] ∨ sign = [0x2B] ∨ sign = [0x2D]) ∧ IsDigits digits

/-- What stands between the quotes of a string literal: runes other than a quote, a backslash and a
newline, and backslashes with any rune behind them. -/
inductive IsQuoted : List Rune → Prop where
  /-- Nothing. -/
  | nil : IsQuoted []
  /-- A rune that stands for itself. -/
  | plain {rune : Rune} {rest : List Rune} : rune ≠ 0x22 → rune ≠ 0x5C → rune ≠ 0x0A →
      IsQuoted rest → IsQuoted (rune :: rest)
  /-- A backslash and a rune. -/
  | escape {rune : Rune} {rest : List Rune} : IsQuoted rest → IsQuoted (0x5C :: rune :: rest)

/-- The texts of the tokens of a kind. -/
inductive Class : TokenKind → Bytes → Prop where
  /-- A reserved word. -/
  | keyword {kind : TokenKind} : kind ∈ TokenKind.keywords → Class kind (Bytes.ofString kind.name)
  /-- Any other word. -/
  | identifier {text : Bytes} : IsWord (Bytes.runes text) →
      (∀ kind ∈ TokenKind.keywords, Bytes.ofString kind.name ≠ text) → Class .identifier text
  /-- Digits. -/
  | int {text : Bytes} : IsDigits (Bytes.runes text) → Class .int text
  /-- Digits with a fraction, an exponent or both. -/
  | float {text : Bytes} {whole fraction exponent : List Rune} :
      Bytes.runes text = whole ++ (fraction ++ exponent) → IsDigits whole →
      (fraction = [] ∨ IsFraction fraction) → (exponent = [] ∨ IsExponent exponent) →
      fraction ++ exponent ≠ [] → Class .float text
  /-- A string literal. -/
  | string {text : Bytes} {inside : List Rune} :
      Bytes.runes text = 0x22 :: (inside ++ [0x22]) → IsQuoted inside → Class .string text
  /-- An operator or a punctuation mark. -/
  | mark {kind : TokenKind} : kind ∈ TokenKind.marks → Class kind (Bytes.ofString kind.name)

/-! ### Words -/

theorem isWordPart_of_isWordStart {rune : Rune} (starts : isWordStart rune = true) :
    isWordPart rune = true := by
  simp [isWordPart, starts]

theorem isWord_of_keyword :
    ∀ kind ∈ TokenKind.keywords, IsWord (Bytes.runes (Bytes.ofString kind.name)) := by
  have words : ∀ kind ∈ TokenKind.keywords, (match Bytes.runes (Bytes.ofString kind.name) with
      | [] => false
      | first :: others => isWordStart first && others.all isWordPart) = true := by decide
  intro kind member
  have word := words kind member
  split at word
  · cases word
  · rename_i spelt
    rw [spelt]
    simpa [IsWord] using word

theorem ofWord_keyword :
    ∀ kind ∈ TokenKind.keywords, TokenKind.ofWord (Bytes.ofString kind.name) = kind := by decide

theorem ofWord_identifier {word : Bytes}
    (free : ∀ kind ∈ TokenKind.keywords, Bytes.ofString kind.name ≠ word) :
    TokenKind.ofWord word = .identifier := by
  have none : (TokenKind.keywords.find? fun kind => Bytes.ofString kind.name == word) = none := by
    simpa [List.find?_eq_none] using free
  rw [TokenKind.ofWord, none]
  rfl

/-- The words are the reserved words and the identifiers. -/
theorem class_ofWord {word : Bytes} (isWord : IsWord (Bytes.runes word)) :
    Class (TokenKind.ofWord word) word := by
  by_cases free : ∀ kind ∈ TokenKind.keywords, Bytes.ofString kind.name ≠ word
  · rw [ofWord_identifier free]
    exact .identifier isWord free
  · push Not at free
    obtain ⟨kind, reserved, rfl⟩ := free
    rw [ofWord_keyword kind reserved]
    exact .keyword reserved

/-! ### Marks -/

/-- Whether the scanner reads the spelling of a mark as that mark. -/
def readsMark (kind : TokenKind) : Bool :=
  match Bytes.glyphs (Bytes.ofString kind.name) with
  | [glyph] => !isWordStart glyph.rune && !Rune.isDigit glyph.rune && glyph.rune != 0x22 &&
      ofMark? glyph.rune == some kind && !glyph.isIllFormed
  | [glyph, next] => !isWordStart glyph.rune && !Rune.isDigit glyph.rune && glyph.rune != 0x22 &&
      ofMarks? glyph.rune next.rune == some kind && !next.isIllFormed
  | _ => false

theorem readsMark_of_mem : ∀ kind ∈ TokenKind.marks, readsMark kind = true := by decide

/-- The spelling of a mark is one glyph or two, and the scanner knows it. -/
theorem mark_cases {kind : TokenKind} (isMark : kind ∈ TokenKind.marks) :
    ∃ first others, Bytes.glyphs (Bytes.ofString kind.name) = first :: others ∧
      isWordStart first.rune = false ∧ Rune.isDigit first.rune = false ∧
      (first.rune == 0x22) = false ∧
      ((others = [] ∧ ofMark? first.rune = some kind ∧ first.isIllFormed = false) ∨
        ∃ second, others = [second] ∧ ofMarks? first.rune second.rune = some kind ∧
          second.isIllFormed = false) := by
  have reads := readsMark_of_mem kind isMark
  unfold readsMark at reads
  split at reads
  · rename_i glyph spelt
    simp only [Bool.and_eq_true, Bool.not_eq_true', bne, beq_iff_eq] at reads
    obtain ⟨⟨⟨⟨word, digit⟩, quote⟩, mark⟩, formed⟩ := reads
    exact ⟨glyph, [], spelt, word, digit, quote, .inl ⟨rfl, mark, formed⟩⟩
  · rename_i glyph next spelt
    simp only [Bool.and_eq_true, Bool.not_eq_true', bne, beq_iff_eq] at reads
    obtain ⟨⟨⟨⟨word, digit⟩, quote⟩, marks⟩, formed⟩ := reads
    exact ⟨glyph, [next], spelt, word, digit, quote, .inr ⟨next, rfl, marks, formed⟩⟩
  · cases reads

theorem class_ofMark {glyph : Glyph} (regular : glyph.Regular) {kind : TokenKind}
    (isMark : ofMark? glyph.rune = some kind) : Class kind glyph.bytes := by
  have ascii : ∀ rune < 0x80, glyph.rune = rune → glyph.bytes = [rune.toUInt8] :=
    fun rune small same => same ▸ regular.bytes_of_lt (same ▸ small)
  have spelt : kind ∈ TokenKind.marks ∧ glyph.bytes = Bytes.ofString kind.name := by
    unfold ofMark? at isMark
    split at isMark <;> cases isMark <;> rename_i same <;>
      exact ⟨by decide, (ascii _ (by decide) same).trans (by decide)⟩
  rw [spelt.2]
  exact .mark spelt.1

theorem class_ofMarks {first second : Glyph} (regular : first.Regular) (regular' : second.Regular)
    {kind : TokenKind} (areMarks : ofMarks? first.rune second.rune = some kind) :
    Class kind (first.bytes ++ second.bytes) := by
  have ascii : ∀ rune < 0x80, ∀ rune' < 0x80, first.rune = rune → second.rune = rune' →
      first.bytes ++ second.bytes = [rune.toUInt8, rune'.toUInt8] := by
    rintro rune small rune' small' rfl rfl
    rw [regular.bytes_of_lt small, regular'.bytes_of_lt small']
    rfl
  have spelt : kind ∈ TokenKind.marks ∧ first.bytes ++ second.bytes = Bytes.ofString kind.name := by
    unfold ofMarks? at areMarks
    split at areMarks <;> cases areMarks <;> rename_i same same' <;>
      exact ⟨by decide, (ascii _ (by decide) _ (by decide) same same').trans (by decide)⟩
  rw [spelt.2]
  exact .mark spelt.1

/-! ### Counting -/

theorem count_append {holds : Rune → Bool} {front : List Glyph}
    (all : ∀ glyph ∈ front, holds glyph.rune = true) (rest : List Glyph) :
    count holds (front ++ rest) = front.length + count holds rest := by
  rw [count, count, List.takeWhile_append_of_pos all, List.length_append]

theorem count_cons_neg {holds : Rune → Bool} {glyph : Glyph} (fails : holds glyph.rune = false)
    (rest : List Glyph) : count holds (glyph :: rest) = 0 := by
  simp [count, fails]

/-- The glyphs that are counted stand at the beginning. -/
theorem take_count (holds : Rune → Bool) (glyphs : List Glyph) :
    glyphs.take (count holds glyphs) = glyphs.takeWhile fun glyph => holds glyph.rune :=
  (List.prefix_iff_eq_take.mp (List.takeWhile_prefix _)).symm

theorem holds_of_mem_take_count {holds : Rune → Bool} {glyphs : List Glyph} {rune : Rune}
    (member : rune ∈ (glyphs.take (count holds glyphs)).map Glyph.rune) : holds rune = true := by
  rw [take_count] at member
  obtain ⟨glyph, inside, rfl⟩ := List.mem_map.mp member
  exact List.mem_takeWhile_imp (p := fun glyph : Glyph => holds glyph.rune) inside

theorem isDigits_take_count {glyphs : List Glyph} (some : 0 < count Rune.isDigit glyphs) :
    IsDigits ((glyphs.take (count Rune.isDigit glyphs)).map Glyph.rune) := by
  refine ⟨?_, fun rune => holds_of_mem_take_count⟩
  rw [take_count]
  intro none
  rw [List.map_eq_nil_iff] at none
  simp [count, none] at some

/-! ### What the scanner reads is a token -/

theorem fraction_take (glyphs : List Glyph) :
    (glyphs.take (fractionSize glyphs)).map Glyph.rune = [] ∧ fractionSize glyphs = 0 ∨
      IsFraction ((glyphs.take (fractionSize glyphs)).map Glyph.rune) := by
  cases glyphs with
  | nil => exact .inl ⟨rfl, rfl⟩
  | cons point digits =>
      rw [fractionSize]
      split
      · rename_i test
        simp only [Bool.and_eq_true, beq_iff_eq, decide_eq_true_eq] at test
        refine .inr ⟨_, ?_, isDigits_take_count test.2⟩
        rw [Nat.add_comm, List.take_succ_cons, List.map_cons, test.1]
      · exact .inl ⟨rfl, rfl⟩

theorem sign_take (glyphs : List Glyph) :
    (glyphs.take (signSize glyphs)).map Glyph.rune = [] ∨
      (glyphs.take (signSize glyphs)).map Glyph.rune = [0x2B] ∨
      (glyphs.take (signSize glyphs)).map Glyph.rune = [0x2D] := by
  cases glyphs with
  | nil => exact .inl rfl
  | cons sign rest =>
      rw [signSize]
      split
      · rename_i test
        simp only [Bool.or_eq_true, beq_iff_eq] at test
        rcases test with plus | minus
        · exact .inr (.inl (by simp [plus]))
        · exact .inr (.inr (by simp [minus]))
      · exact .inl rfl

theorem exponent_take (glyphs : List Glyph) :
    (glyphs.take (exponentSize glyphs)).map Glyph.rune = [] ∧ exponentSize glyphs = 0 ∨
      IsExponent ((glyphs.take (exponentSize glyphs)).map Glyph.rune) := by
  cases glyphs with
  | nil => exact .inl ⟨rfl, rfl⟩
  | cons mark rest =>
      simp only [exponentSize]
      split
      · rename_i test
        simp only [Bool.and_eq_true, Bool.or_eq_true, beq_iff_eq, decide_eq_true_eq] at test
        refine .inr ⟨mark.rune, _, _, ?_, test.1, sign_take rest, isDigits_take_count test.2⟩
        rw [Nat.add_assoc, Nat.add_comm 1, List.take_succ_cons, List.take_add, List.map_cons,
          List.map_append]
      · exact .inl ⟨rfl, rfl⟩

theorem isQuoted_stringBody {glyphs : List Glyph} (closed : (stringBody glyphs).1 = true) :
    ∃ inside, (glyphs.take (stringBody glyphs).2).map Glyph.rune = inside ++ [0x22] ∧
      IsQuoted inside := by
  fun_induction stringBody glyphs with
  | case1 => cases closed
  | case2 glyph quote => exact ⟨[], by simpa using quote, .nil⟩
  | case3 => cases closed
  | case4 => cases closed
  | case5 glyph next rest quote => exact ⟨[], by simpa using quote, .nil⟩
  | case6 => cases closed
  | case7 glyph next rest notQuote notNewline escape body ih =>
      obtain ⟨inside, same, quoted⟩ := ih closed
      refine ⟨0x5C :: next.rune :: inside, ?_, quoted.escape⟩
      simpa [body, same] using escape
  | case8 glyph next rest notQuote notNewline notEscape body ih =>
      obtain ⟨inside, same, quoted⟩ := ih closed
      refine ⟨glyph.rune :: inside, ?_, .plain ?_ ?_ ?_ quoted⟩
      · simp only [body, List.take_succ_cons, List.map_cons, same, List.cons_append]
      · simpa using notQuote
      · simpa using notEscape
      · simpa using notNewline

/-- What the scanner reads is a token of a class. -/
theorem class_of_read {first : Glyph} {rest : List Glyph} (legible : Legible (first :: rest))
    {kind : TokenKind} {size : Nat} (reads : read first rest = (.ok kind, size)) :
    Class kind (Glyph.text ((first :: rest).take size)) := by
  have runes : ∀ size, Bytes.runes (Glyph.text ((first :: rest).take size)) =
      ((first :: rest).take size).map Glyph.rune := fun size => by
    rw [Bytes.runes, legible.take size]
  unfold read at reads
  split at reads
  · rename_i starts
    cases reads
    refine class_ofWord ?_
    rw [runes, Nat.add_comm, List.take_succ_cons]
    exact ⟨starts, fun rune => holds_of_mem_take_count⟩
  · split at reads
    · rename_i notWord digit
      dsimp only at reads
      generalize sizes : 1 + count Rune.isDigit rest = whole at reads
      have digits : IsDigits (((first :: rest).take whole).map Glyph.rune) := by
        have all := @isDigits_take_count (first :: rest)
        have counts : count Rune.isDigit (first :: rest) = whole := by
          simp [← sizes, count, digit, Nat.add_comm]
        rw [counts] at all
        exact all (by omega)
      have parts : ∀ fraction exponent, ((first :: rest).take (whole + fraction + exponent)).map
          Glyph.rune = ((first :: rest).take whole).map Glyph.rune ++
            ((((first :: rest).drop whole).take fraction).map Glyph.rune ++
              (((first :: rest).drop (whole + fraction)).take exponent).map Glyph.rune) := by
        intro fraction exponent
        rw [← List.map_append, ← List.map_append, ← List.drop_drop, ← List.take_add,
          ← List.take_add,
          Nat.add_assoc]
      have fractions := fraction_take ((first :: rest).drop whole)
      have exponents := exponent_take
        ((first :: rest).drop (whole + fractionSize ((first :: rest).drop whole)))
      split at reads <;> cases reads <;> rename_i test
      · have none : fractionSize ((first :: rest).drop whole) +
            exponentSize
              ((first :: rest).drop (whole + fractionSize ((first :: rest).drop whole))) =
              0 := by simpa using test
        refine .int ?_
        rw [Nat.add_assoc, none, Nat.add_zero, runes]
        exact digits
      · refine .float ((runes _).trans (parts _ _)) digits (fractions.imp_left And.left)
          (exponents.imp_left And.left) fun none => test ?_
        rcases fractions with ⟨-, noFraction⟩ | ⟨_, some, -⟩
        · rcases exponents with ⟨-, noExponent⟩ | ⟨_, _, _, some, -⟩
          · rw [noExponent, noFraction]
            rfl
          · simp [some] at none
        · simp [some] at none
    · split at reads
      · rename_i quote
        dsimp only at reads
        split at reads <;> cases reads
        rename_i closed
        obtain ⟨inside, same, quoted⟩ := isQuoted_stringBody closed
        refine @Class.string _ inside ?_ quoted
        rw [runes, Nat.add_comm, List.take_succ_cons, List.map_cons, same]
        simpa using quote
      · dsimp only at reads
        have regular : first.Regular := legible.regular List.mem_cons_self
        split at reads
        · rename_i pair
          cases reads
          obtain ⟨second, isHead, areMarks⟩ := Option.bind_eq_some_iff.mp pair
          obtain ⟨others, rfl⟩ : ∃ others, rest = second :: others := by
            cases rest with
            | nil => cases isHead
            | cons head others =>
                cases isHead
                exact ⟨others, rfl⟩
          simpa using class_ofMarks regular (legible.regular (by simp)) areMarks
        · split at reads <;> cases reads
          rename_i isMark
          simpa using class_ofMark regular isMark

/-! ### No token is longer -/

/-- What the scanner reads is at least so long as the given glyphs, which spell a token of a kind,
and is of that kind if it is not longer. -/
def ReadsBeyond (kind : TokenKind) (front after : List Glyph) : Prop :=
  ∃ first rest, front ++ after = first :: rest ∧ ∃ kind' size, read first rest = (.ok kind', size) ∧
    front.length ≤ size ∧ ((front ++ after).take size = front → kind' = kind)

theorem ne_of_isDigit {rune other : Rune} (digit : Rune.isDigit rune = true)
    (isOther : Rune.isDigit other = false) : rune ≠ other := by
  rintro rfl
  rw [digit] at isOther
  cases isOther

theorem readsBeyond_word {front : List Glyph} (isWord : IsWord (front.map Glyph.rune))
    (after : List Glyph) : ReadsBeyond (TokenKind.ofWord (Glyph.text front)) front after := by
  cases front with
  | nil => exact isWord.elim
  | cons first others =>
      obtain ⟨starts, parts⟩ := isWord
      have counts := count_append (fun glyph inside => parts _ (List.mem_map_of_mem inside)) after
      refine ⟨first, others ++ after, rfl, _, _, by rw [read, if_pos starts], ?_, ?_⟩
      · rw [counts, List.length_cons]
        omega
      · intro same
        rw [← List.cons_append, same]

theorem not_isWordStart_of_isDigit {rune : Nat} (digit : Rune.isDigit rune = true) :
    isWordStart rune = false := by
  have bounds : 0x30 ≤ rune ∧ rune ≤ 0x39 := by simpa [Rune.isDigit] using digit
  obtain ⟨least, most⟩ := bounds
  interval_cases rune <;> rfl

theorem IsDigits.exists_cons {glyphs : List Glyph} (digits : IsDigits (glyphs.map Glyph.rune)) :
    ∃ first others, glyphs = first :: others := by
  cases glyphs with
  | nil => exact absurd rfl digits.1
  | cons first others => exact ⟨first, others, rfl⟩

/-- How a number is read whose digits are followed by something else than a digit. -/
theorem read_number {first : Glyph} {others tail : List Glyph}
    (digits : IsDigits ((first :: others).map Glyph.rune))
    (stops : ∀ glyph ∈ tail.head?, Rune.isDigit glyph.rune = false) :
    read first (others ++ tail) =
      (.ok (if fractionSize tail + exponentSize (tail.drop (fractionSize tail)) == 0 then .int
          else .float),
        (first :: others).length + fractionSize tail +
          exponentSize (tail.drop (fractionSize tail))) := by
  have isDigit : Rune.isDigit first.rune = true := digits.2 _ (by simp)
  have counts : count Rune.isDigit (others ++ tail) = others.length := by
    rw [count_append (fun glyph inside => digits.2 _ (by simp; exact .inr ⟨glyph, inside, rfl⟩))
      tail]
    cases tail with
    | nil => rfl
    | cons glyph tail => rw [count_cons_neg (stops glyph rfl), Nat.add_zero]
  have behind : ∀ more, (first :: (others ++ tail)).drop (others.length + 1 + more) =
      tail.drop more := by
    intro more
    rw [Nat.add_right_comm, List.drop_succ_cons, ← List.drop_drop, List.drop_left]
  have behindDigits := behind 0
  rw [Nat.add_zero, List.drop_zero] at behindDigits
  rw [read, if_neg (by simp [not_isWordStart_of_isDigit isDigit]), if_pos isDigit]
  simp only [counts, Nat.add_comm 1, behindDigits, behind, List.length_cons]

theorem fractionSize_append {fraction tail : List Glyph}
    (isFraction : IsFraction (fraction.map Glyph.rune)) :
    fractionSize (fraction ++ tail) = fraction.length + count Rune.isDigit tail := by
  obtain ⟨digits, same, some, all⟩ := isFraction
  obtain ⟨point, others, rfl, isPoint, rfl⟩ := List.map_eq_cons_iff.mp same
  have counts := count_append (fun glyph inside => all _ (List.mem_map_of_mem inside)) tail
  have nonempty : 0 < others.length := List.length_pos_iff.mpr fun none => some (by simp [none])
  have test : (point.rune == 0x2E && decide (0 < count Rune.isDigit (others ++ tail))) = true := by
    simp only [isPoint, counts, Bool.and_eq_true, decide_eq_true_eq]
    exact ⟨rfl, by omega⟩
  rw [List.cons_append, fractionSize, if_pos test, counts, List.length_cons]
  omega

theorem exponentSize_append {exponent tail : List Glyph}
    (isExponent : IsExponent (exponent.map Glyph.rune)) :
    exponentSize (exponent ++ tail) = exponent.length + count Rune.isDigit tail := by
  obtain ⟨_, sign, digits, same, isMark, isSign, some, all⟩ := isExponent
  obtain ⟨mark, others, rfl, rfl, parts⟩ := List.map_eq_cons_iff.mp same
  obtain ⟨signs, numerals, rfl, rfl, rfl⟩ := List.map_eq_append_iff.mp parts
  have counts := count_append (fun glyph inside => all _ (List.mem_map_of_mem inside)) tail
  have nonempty : 0 < numerals.length := List.length_pos_iff.mpr fun none => some (by simp [none])
  have signed : signSize (signs ++ (numerals ++ tail)) = signs.length := by
    rcases isSign with none | plus | minus
    · obtain rfl := List.map_eq_nil_iff.mp none
      obtain ⟨numeral, more, rfl⟩ := List.exists_cons_of_ne_nil (List.length_pos_iff.mp nonempty)
      have digit := all _ List.mem_cons_self
      have notPlus : numeral.rune ≠ 0x2B := ne_of_isDigit digit rfl
      have notMinus : numeral.rune ≠ 0x2D := ne_of_isDigit digit rfl
      simp [signSize, notPlus, notMinus]
    · obtain ⟨glyph, more, rfl, isPlus, none⟩ := List.map_eq_cons_iff.mp plus
      obtain rfl := List.map_eq_nil_iff.mp none
      simp [signSize, isPlus]
    · obtain ⟨glyph, more, rfl, isMinus, none⟩ := List.map_eq_cons_iff.mp minus
      obtain rfl := List.map_eq_nil_iff.mp none
      simp [signSize, isMinus]
  have marked : (mark.rune == 0x65 || mark.rune == 0x45) = true := by simpa using isMark
  rw [List.cons_append, List.append_assoc]
  simp only [exponentSize, signed, List.drop_left, counts, marked, Bool.true_and, List.length_cons,
    List.length_append]
  rw [if_pos (by simp only [decide_eq_true_eq]; omega)]
  omega

theorem readsBeyond_int {front : List Glyph} (digits : IsDigits (front.map Glyph.rune))
    (after : List Glyph) : ReadsBeyond .int front after := by
  obtain ⟨first, others, rfl⟩ := digits.exists_cons
  -- The number goes on with the digits behind the given ones.
  have further : IsDigits ((first :: (others ++ after.takeWhile fun glyph =>
      Rune.isDigit glyph.rune)).map Glyph.rune) := by
    refine ⟨by simp, fun rune member => ?_⟩
    rw [← List.cons_append, List.map_append, List.mem_append] at member
    rcases member with inside | behind
    · exact digits.2 rune inside
    · rw [← take_count] at behind
      exact holds_of_mem_take_count behind
  have stops : ∀ glyph ∈ (after.dropWhile fun glyph => Rune.isDigit glyph.rune).head?,
      Rune.isDigit glyph.rune = false := by
    intro glyph head
    have fails := List.head?_dropWhile_not (fun glyph : Glyph => Rune.isDigit glyph.rune) after
    rw [Option.mem_def.mp head] at fails
    simpa using fails
  have reads := read_number further stops
  rw [List.append_assoc, List.takeWhile_append_dropWhile] at reads
  refine ⟨first, others ++ after, rfl, _, _, reads, ?_, ?_⟩
  · simp only [List.length_cons, List.length_append]
    omega
  · intro same
    have short := congrArg List.length same
    simp only [List.length_take, List.length_append, List.length_cons] at short
    cases after with
    | nil => rfl
    | cons glyph after =>
        rw [if_pos]
        simp only [List.length_cons] at short ⊢
        rw [beq_iff_eq]
        omega

theorem readsBeyond_float {whole fraction exponent : List Glyph}
    (digits : IsDigits (whole.map Glyph.rune))
    (isFraction : fraction = [] ∨ IsFraction (fraction.map Glyph.rune))
    (isExponent : exponent = [] ∨ IsExponent (exponent.map Glyph.rune))
    (some : fraction ++ exponent ≠ []) (after : List Glyph) :
    ReadsBeyond .float (whole ++ (fraction ++ exponent)) after := by
  obtain ⟨first, others, rfl⟩ := digits.exists_cons
  -- Behind a fraction or an exponent there may be further digits of it.
  have sizes : fraction.length + exponent.length ≤ fractionSize (fraction ++ exponent ++ after) +
      exponentSize ((fraction ++ exponent ++ after).drop
        (fractionSize (fraction ++ exponent ++ after))) := by
    rw [List.append_assoc]
    rcases isFraction with rfl | isFraction
    · rcases isExponent with rfl | isExponent
      · exact absurd rfl some
      · obtain ⟨_, _, _, same, isMark, -⟩ := id isExponent
        obtain ⟨mark, more, rfl, rfl, -⟩ := List.map_eq_cons_iff.mp same
        have notPoint : mark.rune ≠ 0x2E := by
          rcases isMark with same | same <;> rw [same] <;> decide
        have none : fractionSize (mark :: (more ++ after)) = 0 := by simp [fractionSize, notPoint]
        have size : exponentSize (mark :: more ++ after) = _ := exponentSize_append isExponent
        rw [List.cons_append] at size
        rw [List.nil_append, List.cons_append, none, List.drop_zero, size]
        simp
    · rw [fractionSize_append isFraction]
      rcases isExponent with rfl | isExponent
      · simp only [List.length_nil]
        omega
      · have isMark : count Rune.isDigit (exponent ++ after) = 0 := by
          obtain ⟨_, _, _, same, isMark, -⟩ := isExponent
          obtain ⟨mark, more, rfl, rfl, -⟩ := List.map_eq_cons_iff.mp same
          refine count_cons_neg ?_ (more ++ after)
          rcases isMark with same | same <;> rw [same] <;> decide
        rw [isMark, Nat.add_zero, List.drop_left, exponentSize_append isExponent]
        omega
  have stops : ∀ glyph ∈ (fraction ++ exponent ++ after).head?, Rune.isDigit glyph.rune =
    false := by
    intro glyph head
    rcases isFraction with rfl | ⟨_, same, -⟩
    · rcases isExponent with rfl | ⟨_, _, _, same, isMark, -⟩
      · exact absurd rfl some
      · obtain ⟨mark, more, rfl, rfl, -⟩ := List.map_eq_cons_iff.mp same
        cases head
        rcases isMark with same | same <;> rw [same] <;> decide
    · obtain ⟨point, more, rfl, isPoint, -⟩ := List.map_eq_cons_iff.mp same
      cases head
      rw [isPoint]
      decide
  have nonempty : 0 < fraction.length + exponent.length := by
    rw [← List.length_append]
    exact List.length_pos_iff.mpr some
  have reads := read_number digits stops
  refine ⟨first, others ++ (fraction ++ exponent ++ after), by simp, _, _, reads, ?_, fun _ => ?_⟩
  · simp only [List.length_cons, List.length_append]
    omega
  · rw [if_neg]
    rw [beq_iff_eq]
    omega

theorem stringBody_append {inside after : List Glyph} (quoted : IsQuoted (inside.map Glyph.rune))
    {quote : Glyph} (isQuote : quote.rune = 0x22) :
    stringBody (inside ++ quote :: after) = (true, inside.length + 1) := by
  generalize isInside : inside.map Glyph.rune = runes at quoted
  induction quoted generalizing inside with
  | nil =>
      obtain rfl := List.map_eq_nil_iff.mp isInside
      cases after <;> simp [stringBody, isQuote]
  | @plain rune rest notQuote notEscape notNewline _ ih =>
      obtain ⟨glyph, more, rfl, rfl, isMore⟩ := List.map_eq_cons_iff.mp isInside
      have later := ih isMore
      have goesOn : stringBody (glyph :: (more ++ quote :: after)) =
          ((stringBody (more ++ quote :: after)).1,
            (stringBody (more ++ quote :: after)).2 + 1) := by
        cases more <;> simp [stringBody, notQuote, notEscape, notNewline]
      rw [List.cons_append, goesOn, later, List.length_cons]
  | @escape rune rest _ ih =>
      obtain ⟨glyph, tail, rfl, isEscape, isTail⟩ := List.map_eq_cons_iff.mp isInside
      obtain ⟨next, more, rfl, rfl, isMore⟩ := List.map_eq_cons_iff.mp isTail
      have later := ih isMore
      rw [List.cons_append, List.cons_append]
      simp [stringBody, isEscape, later]

theorem readsBeyond_string {front : List Glyph} {inside : List Rune}
    (isString : front.map Glyph.rune = 0x22 :: (inside ++ [0x22])) (quoted : IsQuoted inside)
    (after : List Glyph) : ReadsBeyond .string front after := by
  obtain ⟨opening, rest, rfl, isOpening, isRest⟩ := List.map_eq_cons_iff.mp isString
  obtain ⟨body, closing, rfl, rfl, isClosing⟩ := List.map_eq_append_iff.mp isRest
  obtain ⟨quote, none, rfl, isQuote, isNone⟩ := List.map_eq_cons_iff.mp isClosing
  obtain rfl := List.map_eq_nil_iff.mp isNone
  have reads : read opening (body ++ quote :: after) = (.ok .string, 1 + (body.length + 1)) := by
    have notWord : ¬ isWordStart opening.rune = true := by
      rw [isOpening]
      decide
    have notDigit : ¬ Rune.isDigit opening.rune = true := by
      rw [isOpening]
      decide
    rw [read, if_neg notWord, if_neg notDigit, if_pos (by simp [isOpening]),
      stringBody_append quoted isQuote]
    rfl
  refine ⟨opening, body ++ quote :: after, by simp, _, _, reads, ?_, fun _ => rfl⟩
  simp only [List.length_cons, List.length_append, List.length_nil]
  omega

theorem readsBeyond_mark {kind : TokenKind} (isMark : kind ∈ TokenKind.marks) (after : List Glyph) :
    ReadsBeyond kind (Bytes.glyphs (Bytes.ofString kind.name)) after := by
  obtain ⟨first, others, spelt, word, digit, quote, single | pair⟩ := mark_cases isMark
  · obtain ⟨rfl, isKind, -⟩ := single
    rw [spelt]
    refine ⟨first, after, rfl, ?_⟩
    cases found : after.head?.bind fun second => ofMarks? first.rune second.rune with
    | none =>
        exact ⟨kind, 1, by simp [read, word, digit, quote, found, isKind], by simp, fun _ => rfl⟩
    | some other =>
        refine ⟨other, 2, by simp [read, word, digit, quote, found], by simp, fun same => ?_⟩
        cases after with
        | nil => cases found
        | cons second after => simp at same
  · obtain ⟨second, rfl, isKind, -⟩ := pair
    rw [spelt]
    refine ⟨first, second :: after, rfl, kind, 2, ?_, by simp, fun _ => rfl⟩
    simp [read, word, digit, quote, isKind]

/-- Where a token of a class begins, the scanner reads one, and none that is shorter. -/
theorem Class.readsBeyond {kind : TokenKind} {front : Bytes} (isClass : Class kind front)
    (after : List Glyph) : ReadsBeyond kind (Bytes.glyphs front) after := by
  cases isClass with
  | keyword reserved =>
      have reads := readsBeyond_word (isWord_of_keyword kind reserved) after
      rwa [Bytes.text_glyphs, ofWord_keyword kind reserved] at reads
  | identifier isWord free =>
      have reads := readsBeyond_word isWord after
      rwa [Bytes.text_glyphs, ofWord_identifier free] at reads
  | int digits => exact readsBeyond_int digits after
  | float isNumber digits isFraction isExponent some =>
      obtain ⟨whole, tail, isWhole, rfl, isTail⟩ := List.map_eq_append_iff.mp isNumber
      obtain ⟨fraction, exponent, rfl, rfl, rfl⟩ := List.map_eq_append_iff.mp isTail
      rw [isWhole]
      refine readsBeyond_float digits (isFraction.imp_left List.map_eq_nil_iff.mp)
        (isExponent.imp_left List.map_eq_nil_iff.mp) (fun none => some ?_) after
      rw [← List.map_append, none]
      rfl
  | string isString quoted => exact readsBeyond_string isString quoted after
  | mark isMark => exact readsBeyond_mark isMark after

/-! ### Tokens before other text -/

theorem settled_of_last {front : Bytes}
    (last : ∀ rune ∈ (Bytes.runes front).getLast?, isWordPart rune = true ∨ rune < 0x80) :
    ∀ glyph ∈ (Bytes.glyphs front).getLast?, glyph.isIllFormed = false := by
  intro glyph isLast
  have member : glyph ∈ Bytes.glyphs front := List.mem_of_getLast? isLast
  rcases last glyph.rune (by simp [Bytes.runes, Option.mem_def.mp isLast]) with part | ascii
  · rw [Bool.eq_false_iff]
    intro broken
    rw [Bytes.rune_of_isIllFormed member broken] at part
    exact absurd part (by decide +kernel)
  · exact (Bytes.regular_of_mem_glyphs member).isIllFormed_of_lt ascii

theorem isWordPart_of_isDigit {rune : Rune} (digit : Rune.isDigit rune = true) :
    isWordPart rune = true := by
  simp [isWordPart, digit]

/-- No token ends in an ill-formed byte. -/
theorem Class.settled {kind : TokenKind} {front : Bytes} (isClass : Class kind front) :
    ∀ glyph ∈ (Bytes.glyphs front).getLast?, glyph.isIllFormed = false := by
  have ofWord : IsWord (Bytes.runes front) →
      ∀ glyph ∈ (Bytes.glyphs front).getLast?, glyph.isIllFormed = false := by
    refine fun isWord => settled_of_last fun rune isLast => .inl ?_
    have member := List.mem_of_getLast? isLast
    cases spelt : Bytes.runes front with
    | nil => simp [spelt] at member
    | cons first others =>
        rw [spelt] at isWord member
        rcases List.mem_cons.mp member with rfl | later
        · exact isWordPart_of_isWordStart isWord.1
        · exact isWord.2 rune later
  cases isClass with
  | keyword reserved => exact ofWord (isWord_of_keyword kind reserved)
  | identifier isWord _ => exact ofWord isWord
  | int digits =>
      exact settled_of_last fun rune isLast =>
        .inl (isWordPart_of_isDigit (digits.2 rune (List.mem_of_getLast? isLast)))
  | @float _ whole fraction exponent isNumber digits isFraction isExponent some =>
      refine settled_of_last fun rune isLast => .inl (isWordPart_of_isDigit ?_)
      rw [isNumber, List.getLast?_append_of_ne_nil _ some] at isLast
      -- The last rune of a fraction and of an exponent is a digit.
      have ends : ∀ {front digits : List Rune}, IsDigits digits →
          rune ∈ (front ++ digits).getLast? → Rune.isDigit rune = true := by
        intro front digits isDigits isLast
        rw [List.getLast?_append_of_ne_nil _ isDigits.1] at isLast
        exact isDigits.2 rune (List.mem_of_getLast? isLast)
      rcases isExponent with rfl | ⟨mark, sign, numerals, rfl, -, -, numeralsDigits⟩
      · rw [List.append_nil] at isLast some
        rcases isFraction with rfl | ⟨numerals, rfl, numeralsDigits⟩
        · exact absurd rfl some
        · exact @ends [0x2E] numerals numeralsDigits isLast
      · refine @ends (fraction ++ mark :: sign) numerals numeralsDigits ?_
        simpa using isLast
  | @string _ inside isString _ =>
      refine settled_of_last fun rune isLast => .inr ?_
      rw [isString, ← List.cons_append, List.getLast?_concat] at isLast
      cases isLast
      decide
  | mark isMark =>
      obtain ⟨first, others, spelt, -, -, -, ⟨rfl, -, formed⟩ | ⟨second, rfl, -, formed⟩⟩ :=
        mark_cases isMark
      · rw [spelt]
        rintro glyph ⟨⟩
        exact formed
      · rw [spelt]
        rintro glyph ⟨⟩
        exact formed

theorem Class.ne_nil {kind : TokenKind} {front : Bytes} (isClass : Class kind front) :
    front ≠ [] := by
  rintro rfl
  obtain ⟨first, rest, none, -⟩ := isClass.readsBeyond []
  cases none

/-- A token that begins a text begins its glyphs. -/
theorem Class.glyphs_eq {kind : TokenKind} {front : Bytes} (isClass : Class kind front)
    {glyphs : List Glyph} (legible : Legible glyphs) (begins : front <+: Glyph.text glyphs) :
    ∃ after, glyphs = Bytes.glyphs front ++ after := by
  obtain ⟨after, same⟩ := begins
  refine ⟨Bytes.glyphs after, ?_⟩
  rw [← legible, ← same, Bytes.glyphs_append after isClass.settled]

/-- A text is that of tokens of one kind at most. -/
theorem Class.unique {kind other : TokenKind} {text : Bytes} (isClass : Class kind text)
    (isOther : Class other text) : kind = other := by
  obtain ⟨first, rest, same, kind', size, reads, long, isKind⟩ := isClass.readsBeyond []
  obtain ⟨first', rest', same', other', size', reads', long', isOther⟩ := isOther.readsBeyond []
  obtain ⟨rfl, rfl⟩ := List.cons.inj (same.symm.trans same')
  cases reads.symm.trans reads'
  rw [List.append_nil] at isKind isOther
  exact (isKind (List.take_of_length_le long)).symm.trans (isOther (List.take_of_length_le long))

/-- The longest token of any class that a text begins with. -/
structure Longest (text : Bytes) (kind : TokenKind) (lexeme : Bytes) : Prop where
  /-- It is a token. -/
  isClass : Class kind lexeme
  /-- The text begins with it. -/
  begins : lexeme <+: text
  /-- No token that the text begins with is longer. -/
  longest : ∀ kind' lexeme', Class kind' lexeme' → lexeme' <+: text → lexeme'.length ≤ lexeme.length

theorem Longest.unique {text lexeme lexeme' : Bytes} {kind kind' : TokenKind}
    (one : Longest text kind lexeme) (other : Longest text kind' lexeme') :
    kind = kind' ∧ lexeme = lexeme' := by
  have size : lexeme.length = lexeme'.length :=
    Nat.le_antisymm (other.longest _ _ one.isClass one.begins)
      (one.longest _ _ other.isClass other.begins)
  obtain rfl : lexeme = lexeme' :=
    (List.prefix_of_prefix_length_le one.begins other.begins size.le).eq_of_length size
  exact ⟨one.isClass.unique other.isClass, rfl⟩

/-- The scanner reads the longest token. -/
theorem read_longest {first : Glyph} {rest : List Glyph} (legible : Legible (first :: rest))
    {kind : TokenKind} {size : Nat} (reads : read first rest = (.ok kind, size)) :
    Longest (Glyph.text (first :: rest)) kind (Glyph.text ((first :: rest).take size)) := by
  refine ⟨class_of_read legible reads, ?_, ?_⟩
  · refine ⟨Glyph.text ((first :: rest).drop size), ?_⟩
    rw [← Glyph.text_append, List.take_append_drop]
  · intro kind' lexeme isClass begins
    obtain ⟨after, same⟩ := isClass.glyphs_eq legible begins
    obtain ⟨first', rest', same', kind'', size', reads', long, -⟩ := isClass.readsBeyond after
    obtain ⟨rfl, rfl⟩ := List.cons.inj (same.trans same')
    cases reads.symm.trans reads'
    have shorter : Bytes.glyphs lexeme <+: (first :: rest).take size := by
      rw [same]
      exact List.prefix_take_iff.mpr ⟨List.prefix_append _ _, long⟩
    obtain ⟨more, parts⟩ := shorter
    rw [← parts, Glyph.text_append, Bytes.text_glyphs, List.length_append]
    exact Nat.le_add_right _ _

/-- Where the scanner reads no token, none begins. -/
theorem read_stuck {first : Glyph} {rest : List Glyph} (legible : Legible (first :: rest))
    {fault : LexicalFault} {size : Nat} (reads : read first rest = (.error fault, size))
    {kind : TokenKind} {lexeme : Bytes} (isClass : Class kind lexeme) :
    ¬ lexeme <+: Glyph.text (first :: rest) := by
  intro begins
  obtain ⟨after, same⟩ := isClass.glyphs_eq legible begins
  obtain ⟨first', rest', same', kind', size', reads', -⟩ := isClass.readsBeyond after
  obtain ⟨rfl, rfl⟩ := List.cons.inj (same.trans same')
  cases reads.symm.trans reads'

end Lexeme

end ScriptCompiler
