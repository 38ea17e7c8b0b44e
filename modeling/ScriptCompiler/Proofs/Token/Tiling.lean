import ScriptCompiler.Proofs.Token.Gaps

/-!
# Tokens tile the text

The scanner goes through a text once: gaps and lexemes stand one behind the other and nothing is
left out (`Tiles`).  The cursor keeps the line, the column and the offset of the text behind it,
which are those of `Position.behind`; so each token lies where its position says, and so does each
fault (`ScanTarget.tokens_tile`).
-/

namespace ScriptCompiler

/-! ### Positions -/

/-- The part of a text behind its last newline. -/
def Bytes.lastLine (text : Bytes) : Bytes := text.rtakeWhile fun byte => byte != 0x0A

/-- The position right behind a text: lines are counted by newlines, and columns by the runes behind
the last one. -/
def Position.behind (file text : Bytes) : Position :=
  { file := file
    line := 1 + text.count 0x0A
    column := 1 + Bytes.runeCount text.lastLine
    offset := text.length }

namespace Glyph

/-- Whether a glyph ends a line. -/
def isNewline (glyph : Glyph) : Bool := glyph.rune == 0x0A

theorem Regular.bytes_of_isNewline {glyph : Glyph} (regular : glyph.Regular)
    (newline : glyph.isNewline = true) : glyph.bytes = [0x0A] :=
  regular.ascii (by decide) (by simpa [isNewline] using newline)

theorem Regular.notMem_of_isNewline {glyph : Glyph} (regular : glyph.Regular)
    (newline : glyph.isNewline = false) : 0x0A ∉ glyph.bytes := by
  intro member
  simp [isNewline, regular.rune (by decide) member] at newline

theorem count_text {glyphs : List Glyph} (regular : ∀ glyph ∈ glyphs, glyph.Regular) :
    (text glyphs).count 0x0A = glyphs.countP isNewline := by
  induction glyphs with
  | nil => rfl
  | cons glyph glyphs ih =>
      rw [List.forall_mem_cons] at regular
      rw [text_cons, List.count_append, ih regular.2]
      cases newline : glyph.isNewline with
      | true => simp [regular.1.bytes_of_isNewline newline, newline, Nat.add_comm]
      | false => simp [List.count_eq_zero.mpr (regular.1.notMem_of_isNewline newline), newline]

theorem lastLine_text {glyphs : List Glyph} (regular : ∀ glyph ∈ glyphs, glyph.Regular) :
    Bytes.lastLine (text glyphs) = text (glyphs.rtakeWhile fun glyph => !glyph.isNewline) := by
  induction glyphs using List.reverseRecOn with
  | nil => rfl
  | append_singleton glyphs glyph ih =>
      rw [List.forall_mem_append, List.forall_mem_singleton] at regular
      cases newline : glyph.isNewline with
      | true =>
          rw [List.rtakeWhile_concat_neg _ _ _ (by simp [newline]), text_append, text_cons,
            regular.2.bytes_of_isNewline newline, Bytes.lastLine]
          exact List.rtakeWhile_concat_neg _ _ _ (by simp)
      | false =>
          rw [List.rtakeWhile_concat_pos _ _ _ (by simp [newline]), text_append, text_append,
            ← ih regular.1, text_cons, text_nil, List.append_nil, Bytes.lastLine, List.rtakeWhile,
            List.reverse_append, List.takeWhile_append_of_pos, List.reverse_append,
            List.reverse_reverse]
          · rfl
          · intro byte member
            simpa using ne_of_mem_of_not_mem (List.mem_reverse.mp member)
              (regular.2.notMem_of_isNewline newline)

end Glyph

/-- What the counters of a cursor say of the glyphs that it has passed. -/
structure Cursor.Passed (cursor : Cursor) (glyphs : List Glyph) : Prop where
  /-- The line. -/
  line : cursor.line = 1 + glyphs.countP Glyph.isNewline
  /-- The column. -/
  column : cursor.column = 1 + (glyphs.rtakeWhile fun glyph => !glyph.isNewline).length
  /-- The offset. -/
  offset : cursor.offset = (Glyph.text glyphs).length

namespace Cursor.Passed

theorem start (text : Bytes) : (ofText text).Passed [] := ⟨rfl, rfl, rfl⟩

theorem step {cursor : Cursor} {glyphs : List Glyph} (passed : cursor.Passed glyphs) :
    cursor.step.Passed (glyphs ++ cursor.rest.take 1) := by
  unfold Cursor.step
  split
  · rename_i empty
    simpa [empty] using passed
  · rename_i glyph rest split_
    obtain ⟨line, column, offset⟩ := passed
    rw [split_, List.take_succ_cons, List.take_zero]
    split
    · rename_i newline
      have newline : glyph.isNewline = true := newline
      exact ⟨by simp [line, newline, Nat.add_assoc],
        by rw [List.rtakeWhile_concat_neg _ _ _ (by simp [newline])]; rfl, by simp [offset]⟩
    · rename_i newline
      have newline : glyph.isNewline = false := by simpa [Glyph.isNewline] using newline
      refine ⟨by simp [line, newline], ?_, by simp [offset]⟩
      rw [List.rtakeWhile_concat_pos _ _ _ (by simp [newline])]
      simp [column, Nat.add_assoc]

theorem advance {cursor : Cursor} {glyphs : List Glyph} (passed : cursor.Passed glyphs)
    (size : Nat) :
    (cursor.advance size).Passed (glyphs ++ cursor.rest.take size) := by
  induction size generalizing cursor glyphs with
  | zero => simpa [Cursor.advance] using passed
  | succ size ih =>
      have later := ih passed.step
      rwa [rest_step, List.append_assoc, ← List.take_add, Nat.add_comm] at later

/-- The position of a cursor is right behind the text of the glyphs that it has passed. -/
theorem position {cursor : Cursor} {glyphs : List Glyph} (passed : cursor.Passed glyphs)
    (legible : Legible glyphs) (file : Bytes) :
    cursor.position file = Position.behind file (Glyph.text glyphs) := by
  have line : Legible (glyphs.rtakeWhile fun glyph => !glyph.isNewline) := by
    rw [List.suffix_iff_eq_drop.mp (List.rtakeWhile_suffix _ glyphs)]
    exact legible.drop _
  have regular : ∀ glyph ∈ glyphs, glyph.Regular := fun _ => legible.regular
  rw [Cursor.position, Position.behind, passed.line, passed.column, passed.offset,
    Glyph.count_text regular, Glyph.lastLine_text regular, Bytes.runeCount, line]
  simp

end Cursor.Passed

/-! ### Lexemes and faults -/

/-- Behind the first byte of a glyph there are bytes outside ASCII only. -/
theorem Glyph.Regular.exists_plain {glyph : Glyph} (regular : glyph.Regular) :
    ∃ lead more, glyph.bytes = lead :: more ∧ ∀ byte ∈ more, byte ≠ 0x22 ∧ byte ≠ 0x5C := by
  rcases regular with ⟨_, spelt⟩ | ⟨_, nonempty, outside⟩
  · exact ⟨_, [], spelt, by simp⟩
  · obtain ⟨lead, more, spelt⟩ := List.exists_cons_of_ne_nil nonempty
    refine ⟨lead, more, spelt, fun byte member => ?_⟩
    have large := outside byte (by simp [spelt, member])
    constructor <;> rintro rfl <;> exact absurd large (by decide)

namespace Lexeme

/-- The text of a string literal behind its opening quote.  A backslash keeps the byte behind it
from ending the literal. -/
inductive Literal : Bytes → Prop where
  /-- The closing quote. -/
  | quote : Literal [0x22]
  /-- A backslash and what it escapes. -/
  | escape {byte : UInt8} {rest : Bytes} : Literal rest → Literal (0x5C :: byte :: rest)
  /-- A byte that stands for itself. -/
  | byte {byte : UInt8} {rest : Bytes} : byte ≠ 0x22 → byte ≠ 0x0A → byte ≠ 0x5C → Literal rest →
      Literal (byte :: rest)

theorem Literal.quote_mem {front : Bytes} (literal : Literal front) : 0x22 ∈ front := by
  induction literal with
  | quote => simp
  | escape _ ih => simp [ih]
  | byte _ _ _ _ ih => simp [ih]

theorem Literal.newline_head {front after text : Bytes} (literal : Literal front) :
    0x0A :: text ≠ front ++ after := by
  rintro same
  cases literal with
  | quote => simp at same
  | escape _ => simp at same
  | byte _ notNewline _ _ => exact notNewline (List.cons.inj same).1.symm

/-- Bytes that stand for themselves can be taken off. -/
theorem Literal.of_append {bytes front after text : Bytes}
    (plain : ∀ byte ∈ bytes, byte ≠ 0x22 ∧ byte ≠ 0x5C) (literal : Literal front)
    (same : bytes ++ text = front ++ after) : ∃ rest, Literal rest ∧ text = rest ++ after := by
  induction bytes generalizing front with
  | nil => exact ⟨front, literal, same⟩
  | cons byte bytes ih =>
      rw [List.forall_mem_cons] at plain
      obtain ⟨⟨notQuote, notEscape⟩, plain⟩ := plain
      cases literal with
      | quote => exact absurd (List.cons.inj same).1 notQuote
      | escape _ => exact absurd (List.cons.inj same).1 notEscape
      | byte _ _ _ literal => exact ih plain literal (List.cons.inj same).2

theorem Literal.of_escape {front after text : Bytes} (literal : Literal front)
    (same : 0x5C :: text = front ++ after) :
    ∃ byte rest, Literal rest ∧ text = byte :: (rest ++ after) := by
  cases literal with
  | quote => simp at same
  | @escape byte rest literal => exact ⟨byte, rest, literal, (List.cons.inj same).2⟩
  | byte _ _ notEscape _ => exact absurd (List.cons.inj same).1.symm notEscape

/-- A string literal that is not closed has no end in the text. -/
theorem stringBody_unclosed {glyphs : List Glyph} (regular : ∀ glyph ∈ glyphs, glyph.Regular)
    (unclosed : (stringBody glyphs).1 = false) {front after : Bytes} (literal : Literal front) :
    Glyph.text glyphs ≠ front ++ after := by
  fun_induction stringBody glyphs generalizing front with
  | case1 =>
      intro same
      have empty := (List.nil_eq_append_iff.mp same).1
      simpa [empty] using literal.quote_mem
  | case2 => cases unclosed
  | case3 glyph notQuote newline =>
      have spelt := (regular glyph List.mem_cons_self).bytes_of_isNewline newline
      rw [Glyph.text_cons, spelt]
      exact literal.newline_head
  | case4 glyph notQuote notNewline =>
      intro same
      rw [Glyph.text_cons, Glyph.text_nil, List.append_nil] at same
      have member : 0x22 ∈ glyph.bytes := same ▸ List.mem_append_left _ literal.quote_mem
      simp [(regular glyph List.mem_cons_self).rune (by decide) member] at notQuote
  | case5 => cases unclosed
  | case6 glyph next rest notQuote newline =>
      have spelt := (regular glyph List.mem_cons_self).bytes_of_isNewline newline
      rw [Glyph.text_cons, spelt]
      exact literal.newline_head
  | case7 glyph next rest notQuote notNewline escape body ih =>
      intro same
      simp only [List.forall_mem_cons] at regular
      have spelt : glyph.bytes = [0x5C] := regular.1.ascii (by decide) (by simpa using escape)
      rw [Glyph.text_cons, spelt] at same
      obtain ⟨byte, inside, literal, same⟩ := literal.of_escape same
      -- Only the first byte of the glyph is escaped, and the others stand for themselves.
      obtain ⟨lead, more, spelt, plain⟩ := regular.2.1.exists_plain
      change Glyph.text (next :: rest) = _ at same
      rw [Glyph.text_cons, spelt] at same
      obtain ⟨inside, literal, same⟩ := literal.of_append plain (List.cons.inj same).2
      exact ih regular.2.2 unclosed literal same
  | case8 glyph next rest notQuote notNewline notEscape body ih =>
      intro same
      rw [List.forall_mem_cons] at regular
      have plain : ∀ byte ∈ glyph.bytes, byte ≠ 0x22 ∧ byte ≠ 0x5C := by
        intro byte member
        constructor
        · rintro rfl
          simp [regular.1.rune (by decide) member] at notQuote
        · rintro rfl
          simp [regular.1.rune (by decide) member] at notEscape
      obtain ⟨inside, literal, same⟩ := literal.of_append plain same
      exact ih regular.2 unclosed literal same

/-- Whether some token begins with a rune, given the rune behind it. -/
def isStart (first : Rune) (second : Option Rune) : Bool :=
  isWordStart first || Rune.isDigit first || first == 0x22 || (ofMark? first).isSome ||
    second.any fun second => (ofMarks? first second).isSome

theorem ofWord_ne_eof (word : Bytes) : TokenKind.ofWord word ≠ .eof := by
  unfold TokenKind.ofWord
  cases found : TokenKind.keywords.find? fun kind => Bytes.ofString kind.name == word with
  | none => decide
  | some kind =>
      have member := List.mem_of_find?_eq_some found
      rintro rfl
      exact absurd member (by decide)

theorem ofMarks?_ne_eof (first second : Rune) : ofMarks? first second ≠ some .eof := by
  unfold ofMarks?
  split <;> simp

theorem ofMark?_ne_eof (rune : Rune) : ofMark? rune ≠ some .eof := by
  unfold ofMark?
  split <;> simp

theorem read_ok {first : Glyph} {rest : List Glyph} {kind : TokenKind} {size : Nat}
    (reads : read first rest = (.ok kind, size)) : kind ≠ .eof ∧ 0 < size := by
  unfold read at reads
  split at reads
  · cases reads
    exact ⟨ofWord_ne_eof _, by omega⟩
  · split at reads
    · cases reads
      exact ⟨by split <;> decide, by omega⟩
    · split at reads
      · dsimp only at reads
        split at reads <;> cases reads
        exact ⟨by decide, by omega⟩
      · dsimp only at reads
        split at reads
        · rename_i pair
          cases reads
          obtain ⟨second, -, marks⟩ := Option.bind_eq_some_iff.mp pair
          exact ⟨fun same => ofMarks?_ne_eof _ _ (same ▸ marks), by decide⟩
        · split at reads <;> cases reads
          rename_i mark
          exact ⟨fun same => ofMark?_ne_eof _ (same ▸ mark), by decide⟩

end Lexeme

/-- What stands at the beginning of a text with a fault. -/
def LexicalFault.Stands (text : Bytes) : LexicalFault → Prop
  | .unexpected rune => ∃ glyph rest, Bytes.glyphs text = glyph :: rest ∧ glyph.rune = rune ∧
      Lexeme.isStart rune (rest.head?.map Glyph.rune) = false
  | .unclosedComment => Gap.Unclosed text
  | .unclosedString => ∃ inside, text = 0x22 :: inside ∧
      ∀ front after, Lexeme.Literal front → inside ≠ front ++ after

theorem Lexeme.read_error {first : Glyph} {rest : List Glyph} {fault : LexicalFault} {size : Nat}
    (legible : Legible (first :: rest)) (reads : read first rest = (.error fault, size)) :
    fault.Stands (Glyph.text (first :: rest)) := by
  unfold read at reads
  split at reads
  · cases reads
  · rename_i notWord
    split at reads
    · cases reads
    · rename_i notDigit
      split at reads
      · rename_i quote
        dsimp only at reads
        split at reads <;> cases reads
        rename_i unclosed
        have spelt : first.bytes = [0x22] :=
          (legible.regular List.mem_cons_self).ascii (by decide) (by simpa using quote)
        refine ⟨Glyph.text rest, by rw [Glyph.text_cons, spelt]; rfl, fun front after literal => ?_⟩
        exact stringBody_unclosed (fun _ member => legible.regular (List.mem_cons_of_mem _ member))
          (by simpa using unclosed) literal
      · rename_i notQuote
        dsimp only at reads
        split at reads
        · cases reads
        · rename_i noPair
          split at reads <;> cases reads
          rename_i noMark
          refine ⟨first, rest, legible, rfl, ?_⟩
          cases rest <;> simp_all [isStart]

/-! ### The tokens of a text -/

/-- Tokens one behind the other: the part `front` of a text is made of gaps, in which nothing but
blanks and comments stands, and of the lexemes of the tokens. -/
inductive Tiles (file text : Bytes) : Bytes → List Token → Prop where
  /-- No token yet. -/
  | nil : Tiles file text [] []
  /-- One more gap and one more lexeme. -/
  | token {front gap rest : Bytes} {tokens : List Token} {token : Token} :
      Tiles file text front tokens → text = front ++ gap ++ token.lexeme ++ rest →
      Gap.Fills (token.lexeme ++ rest) gap → ¬ Gap.Begins (token.lexeme ++ rest) →
      token.lexeme ≠ [] → token.kind ≠ .eof → token.position = .behind file (front ++ gap) →
      Tiles file text (front ++ gap ++ token.lexeme) (tokens ++ [token])

/-- The kind and the lexeme of a token. -/
def Token.shape (token : Token) : TokenKind × Bytes := (token.kind, token.lexeme)

/-- Where a token lies: its offset and its length delimit its lexeme, and its position is right
behind the text before it. -/
structure Token.Located (file text : Bytes) (token : Token) : Prop where
  /-- The lexeme is that part of the text. -/
  lexeme : (text.drop token.position.offset.toNat).take token.length = token.lexeme
  /-- The line, the column and the offset are those of the text before. -/
  position : token.position = .behind file (text.take token.position.offset.toNat)

theorem Token.Located.of_split {file text front rest : Bytes} {token : Token}
    (split : text = front ++ token.lexeme ++ rest)
    (position : token.position = .behind file front) :
    token.Located file text := by
  have offset : token.position.offset.toNat = front.length := by
    rw [position]
    exact Int.toNat_natCast _
  constructor
  · rw [offset, split, List.append_assoc, List.drop_left, Token.length, List.take_left]
  · rw [offset, split, List.append_assoc, List.take_left, position]

theorem Tiles.located {file text front : Bytes} {tokens : List Token}
    (tiles : Tiles file text front tokens) {token : Token} (member : token ∈ tokens) :
    token.Located file text := by
  induction tiles with
  | nil => cases member
  | token _ split _ _ _ _ position ih =>
      rcases List.mem_append.mp member with earlier | last
      · exact ih earlier
      · cases List.mem_singleton.mp last
        exact .of_split split position

namespace ScanTarget

/-- The diagnostic of a fault behind a text. -/
def faultBehind (target : ScanTarget) (front : Bytes) (fault : LexicalFault) : Diagnostic :=
  { category := .illegalCharacter
    details := fault.message
    position := .behind target.file front
    origin := target.origin }

/-- What one step of the scanner finds at a cursor that has passed some glyphs: a fault behind a
gap, the end of the text behind a gap, or a gap and a token, which the next cursor has passed
too. -/
def Finds (target : ScanTarget) (passed : List Glyph) (cursor : Cursor) :
    Except Diagnostic Token × Cursor → Prop
  | (.error diagnostic, _) => ∃ gap rest fault, Glyph.text cursor.rest = gap ++ rest ∧
      Gap.Fills rest gap ∧ LexicalFault.Stands rest fault ∧
      diagnostic = target.faultBehind (Glyph.text passed ++ gap) fault
  | (.ok token, following) =>
      (Gap.Fills [] (Glyph.text cursor.rest) ∧
        token = ⟨.eof, [], .behind target.file (Glyph.text passed ++ Glyph.text cursor.rest)⟩) ∨
      ∃ taken gap, cursor.rest = taken ++ following.rest ∧ following.Passed (passed ++ taken) ∧
        Glyph.text taken = gap ++ token.lexeme ∧
        Gap.Fills (token.lexeme ++ Glyph.text following.rest) gap ∧
        ¬ Gap.Begins (token.lexeme ++ Glyph.text following.rest) ∧ token.lexeme ≠ [] ∧
        token.kind ≠ .eof ∧ token.position = .behind target.file (Glyph.text passed ++ gap)

theorem next_finds (target : ScanTarget) {cursor : Cursor} {passed : List Glyph}
    (legible : Legible (passed ++ cursor.rest)) (position : cursor.Passed passed) :
    target.Finds passed cursor (target.next cursor) := by
  have reads := Gap.skip_reads .between 0
    fun glyph member => legible.regular (List.mem_append_right passed member)
  -- Behind a gap the cursor has passed the gap too.
  have behind : ∀ {skipped rest : List Glyph}, cursor.rest = skipped ++ rest →
      (cursor.advance (0 + skipped.length)).rest = rest ∧
      (cursor.advance (0 + skipped.length)).Passed (passed ++ skipped) ∧
      Legible (passed ++ skipped) ∧ Legible rest := by
    intro skipped rest split
    have moved := position.advance skipped.length
    rw [split, List.take_left] at moved
    rw [split, ← List.append_assoc] at legible
    obtain ⟨front, later⟩ := legible.of_append
    rw [Nat.zero_add, Cursor.rest_advance, split, List.drop_left]
    exact ⟨rfl, moved, front, later⟩
  rw [next]
  cases skips : Gap.skip .between 0 cursor.rest with
  | unclosed start =>
      rw [skips] at reads
      rcases reads with ⟨_, ⟨⟩, _⟩ | ⟨skipped, rest, split, rfl, fills, unclosed⟩
      obtain ⟨-, moved, front, -⟩ := behind split
      refine ⟨_, _, .unclosedComment, by rw [split, Glyph.text_append], fills, unclosed, ?_⟩
      rw [diagnostic, faultBehind, moved.position front, Glyph.text_append]
  | closed size =>
      rw [skips] at reads
      obtain ⟨skipped, rest, split, rfl, fills, ends⟩ := reads
      obtain ⟨remains, moved, front, later⟩ := behind split
      have place := moved.position front target.file
      rw [Glyph.text_append] at place
      dsimp only
      generalize cursor.advance (0 + skipped.length) = start at remains moved place
      cases rest with
      | nil =>
          rw [List.append_nil] at split
          rw [remains]
          exact .inl ⟨split ▸ fills, by rw [place, split]⟩
      | cons first rest =>
          rw [remains]
          dsimp only
          cases reads : Lexeme.read first rest with
          | mk result size =>
              cases result with
              | error fault =>
                  exact ⟨_, _, fault, by rw [split, Glyph.text_append], fills,
                    Lexeme.read_error later reads, by rw [diagnostic, place]; rfl⟩
              | ok kind =>
                  obtain ⟨notEnd, nonempty⟩ := Lexeme.read_ok reads
                  have following := moved.advance size
                  rw [remains] at following
                  have parts := List.take_append_drop size (first :: rest)
                  refine .inr ⟨skipped ++ (first :: rest).take size, Glyph.text skipped, ?_,
                    ?_, ?_, ?_,
                    ?_, ?_, notEnd, place⟩
                  · rw [Cursor.rest_advance, remains, List.append_assoc, parts, split]
                  · rwa [← List.append_assoc]
                  · rw [Glyph.text_append]
                  · rwa [Cursor.rest_advance, remains, ← Glyph.text_append, parts]
                  · rwa [Cursor.rest_advance, remains, ← Glyph.text_append, parts]
                  · obtain ⟨size, rfl⟩ := Nat.exists_eq_succ_of_ne_zero nonempty.ne'
                    obtain ⟨lead, more, spelt⟩ := (later.regular List.mem_cons_self).exists_cons
                    simp [spelt]

/-- How the tokens of a text end: with a token at the end of the text, behind tokens that tile the
text up to a gap, where all of them lie at their positions, or with a fault behind such tokens and a
gap. -/
def Tiled (target : ScanTarget) (text : Bytes) : Except Diagnostic (List Token) → Prop
  | .ok tokens => ∃ front gap words, text = front ++ gap ∧ Gap.Fills [] gap ∧
      Tiles target.file text front words ∧
      tokens = words ++ [⟨.eof, [], .behind target.file text⟩] ∧
      ∀ token ∈ tokens, token.Located target.file text
  | .error diagnostic => ∃ front gap rest words fault, text = front ++ gap ++ rest ∧
      Gap.Fills rest gap ∧ Tiles target.file text front words ∧ LexicalFault.Stands rest fault ∧
      diagnostic = target.faultBehind (front ++ gap) fault

theorem tokensWithin_tiled {target : ScanTarget} {text : Bytes} {steps : Nat} {cursor : Cursor}
    {passed : List Glyph} {words : List Token} (whole : Bytes.glyphs text = passed ++ cursor.rest)
    (position : cursor.Passed passed) (enough : cursor.rest.length < steps)
    (tiles : Tiles target.file text (Glyph.text passed) words) :
    target.Tiled text ((target.tokensWithin steps cursor).map (words ++ ·)) := by
  induction steps generalizing cursor passed words with
  | zero => cases enough
  | succ steps ih =>
      have spelt : text = Glyph.text passed ++ Glyph.text cursor.rest := by
        rw [← Glyph.text_append, ← whole, Bytes.text_glyphs]
      have finds := target.next_finds (whole ▸ Legible.ofText text) position
      rw [tokensWithin]
      rcases steps_ : target.next cursor with ⟨diagnostic | token, following⟩ <;>
        rw [steps_] at finds
      · obtain ⟨gap, rest, fault, split, fills, stands, same⟩ := finds
        exact ⟨_, gap, rest, words, fault, by rw [spelt, split, List.append_assoc], fills, tiles,
          stands, same⟩
      · rcases finds with ⟨fills, rfl⟩ |
          ⟨taken, gap, split, passes, lexed, fills, ends, nonempty, notEnd, place⟩
        · rw [← spelt]
          refine ⟨_, _, words, spelt, fills, tiles, rfl, fun token member => ?_⟩
          rcases List.mem_append.mp member with word | last
          · exact tiles.located word
          · have whole : text = text ++ [] ++ [] := by simp
            cases List.mem_singleton.mp last
            exact .of_split whole rfl
        · have shorter : following.rest.length < steps := by
            have some : taken ≠ [] := by
              rintro rfl
              exact nonempty (List.append_eq_nil_iff.mp lexed.symm).2
            have positive := List.length_pos_iff.mpr some
            rw [split, List.length_append] at enough
            omega
          have others := ih (by rw [whole, split, List.append_assoc]) passes shorter
            (by
              rw [Glyph.text_append, lexed, ← List.append_assoc]
              exact tiles.token (by rw [spelt, split, Glyph.text_append, lexed]; simp) fills ends
                nonempty notEnd place)
          have goesOn : (token.kind == .eof) = false := by simpa using notEnd
          dsimp only
          rw [goesOn]
          cases rest : target.tokensWithin steps following <;>
            simpa [rest, Except.map] using others

/-- The scanner starts at the beginning of a text with no token behind it. -/
theorem tiled (target : ScanTarget) (text : Bytes) : target.Tiled text (target.tokens text) := by
  have tiled : target.Tiled text ((target.tokens text).map ([] ++ ·)) :=
    tokensWithin_tiled rfl (.start text) (Nat.lt_succ_self _) .nil
  have same : (target.tokens text).map ([] ++ ·) = target.tokens text := by
    cases target.tokens text <;> rfl
  rwa [same] at tiled

/-- **Tokens tile the text.**  The tokens of a text and the gaps between them are the text, and each
token lies where its position says; a text without tokens has a fault where its diagnostic says. -/
theorem tokens_tile (target : ScanTarget) (text : Bytes) :
    target.Tiled text (target.tokens text) := target.tiled text

end ScanTarget

end ScriptCompiler
