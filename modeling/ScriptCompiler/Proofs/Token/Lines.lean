import ScriptCompiler.Proofs.Layout.Reading
import ScriptCompiler.Proofs.Token.Spacing

/-!
# Texts one line after the other

No token and no gap reaches over a newline with which a readable text goes on: a comment to the end
of the line ends there, and a token that is read before the newline is read in the same way without
it (`Gap.skip_newline`, `Lexeme.read_newline`).  So a text behind a readable text and a newline is
read as it is read alone, only further down (`ScanTarget.tokens_lines`).
-/

namespace ScriptCompiler

/-! ### Gaps before a newline -/

namespace Gap

/-- The state that is in the middle of the same with more glyphs skipped before. -/
def State.later (extra : Nat) : State → State
  | .between => .between
  | .line => .line
  | .block start inner => .block (start + extra) inner

/-- The ending of a gap with more glyphs skipped before. -/
def Ending.later (extra : Nat) : Ending → Ending
  | .closed size => .closed (size + extra)
  | .unclosed start => .unclosed (start + extra)

theorem skip_later (extra : Nat) (state : State) (size : Nat) (glyphs : List Glyph) :
    skip (state.later extra) (size + extra) glyphs = (skip state size glyphs).later extra := by
  fun_induction skip state size glyphs <;>
    simp_all [skip, State.later, Ending.later, Nat.add_right_comm] <;> grind

theorem skip_between_newline {newline : Glyph} (isNewline : newline.rune = 0x0A) (size : Nat)
    (more : List Glyph) : skip .between size (newline :: more) = skip .between (size + 1) more := by
  cases more <;> simp [skip, isNewline, isBlank]

/-- A gap that comes to the end of the glyphs goes on behind a newline, and any other gap ends where
it ends without it. -/
theorem skip_newline {state : State} {size final : Nat} {glyphs : List Glyph}
    (closed : skip state size glyphs = .closed final) {newline : Glyph}
    (isNewline : newline.rune = 0x0A) (more : List Glyph) :
    (final = size + glyphs.length ∧
        skip state size (glyphs ++ newline :: more) = skip .between (final + 1) more) ∨
      final < size + glyphs.length ∧ skip state size (glyphs ++ newline :: more) =
        .closed final := by
  have between := fun size => skip_between_newline isNewline size more
  fun_induction skip state size glyphs <;> simp_all [skip, isBlank] <;> grind

end Gap

/-! ### Tokens before a newline -/

/-- The glyph that ends a line. -/
def Glyph.newline : Glyph := ⟨0x0A, [0x0A]⟩

namespace Lexeme

theorem count_le (holds : Rune → Bool) (glyphs : List Glyph) : count holds glyphs ≤ glyphs.length :=
  (List.takeWhile_prefix _).length_le

theorem fractionSize_le (glyphs : List Glyph) : fractionSize glyphs ≤ glyphs.length := by
  cases glyphs with
  | nil => exact Nat.le_refl 0
  | cons point digits =>
      have digitsLe := count_le Rune.isDigit digits
      rw [fractionSize, List.length_cons]
      split <;> omega

theorem signSize_le (glyphs : List Glyph) : signSize glyphs ≤ glyphs.length := by
  cases glyphs with
  | nil => exact Nat.le_refl 0
  | cons sign rest =>
      rw [signSize, List.length_cons]
      split <;> omega

theorem exponentSize_le (glyphs : List Glyph) : exponentSize glyphs ≤ glyphs.length := by
  cases glyphs with
  | nil => exact Nat.le_refl 0
  | cons mark rest =>
      have digitsLe := count_le Rune.isDigit (rest.drop (signSize rest))
      have signLe := signSize_le rest
      rw [List.length_drop] at digitsLe
      simp only [exponentSize, List.length_cons]
      split <;> omega

theorem stringBody_le (glyphs : List Glyph) : (stringBody glyphs).2 ≤ glyphs.length := by
  fun_induction stringBody glyphs <;> simp_all <;> omega

/-- A token has its glyphs. -/
theorem read_le {first : Glyph} {rest : List Glyph} {kind : TokenKind} {size : Nat}
    (reads : read first rest = (.ok kind, size)) : size ≤ (first :: rest).length := by
  rw [List.length_cons]
  unfold read at reads
  split at reads
  · cases reads
    have wordLe := count_le isWordPart rest
    omega
  · split at reads
    · cases reads
      have wholeLe := count_le Rune.isDigit rest
      have fractionLe := fractionSize_le ((first :: rest).drop (1 + count Rune.isDigit rest))
      have exponentLe := exponentSize_le ((first :: rest).drop (1 + count Rune.isDigit rest +
        fractionSize ((first :: rest).drop (1 + count Rune.isDigit rest))))
      simp only [List.length_drop, List.length_cons] at fractionLe exponentLe
      omega
    · split at reads
      · dsimp only at reads
        split at reads <;> cases reads
        have bodyLe := stringBody_le rest
        omega
      · dsimp only at reads
        split at reads
        · rename_i pair
          cases reads
          obtain ⟨second, isHead, -⟩ := Option.bind_eq_some_iff.mp pair
          cases rest with
          | nil => cases isHead
          | cons second rest => simp
        · split at reads <;> cases reads
          omega

/-- A token is read in the same way before a newline. -/
theorem read_newline {first : Glyph} {rest more : List Glyph}
    (legible : Legible (first :: rest ++ Glyph.newline :: more)) {kind : TokenKind} {size : Nat}
    (reads : read first rest = (.ok kind, size)) :
    read first (rest ++ Glyph.newline :: more) = (.ok kind, size) := by
  have sizeLe := read_le reads
  have longest := (read_longest legible.of_append.1 reads).append_blank
    (show Gap.isBlank (0x0A : UInt8).toNat = true by decide) (Glyph.text more)
  have text : Glyph.text (first :: rest) ++ 0x0A :: Glyph.text more =
      Glyph.text (first :: (rest ++ Glyph.newline :: more)) := by
    simp [Glyph.newline]
  rw [text] at longest
  rcases reads' : read first (rest ++ Glyph.newline :: more) with ⟨fault | kind', size'⟩
  · exact absurd longest.begins (read_stuck legible reads' longest.isClass)
  · have sizeLe' := read_le reads'
    obtain ⟨rfl, same⟩ := longest.unique (read_longest legible reads')
    -- Legible glyphs are known by their text, and how many they are by themselves.
    have front : (first :: rest).take size = (first :: rest ++ Glyph.newline :: more).take size :=
      (List.take_append_of_le_length sizeLe).symm
    have glyphs : (first :: rest ++ Glyph.newline :: more).take size =
        (first :: rest ++ Glyph.newline :: more).take size' := by
      rw [← legible.take size, ← legible.take size', ← front]
      exact congrArg Bytes.glyphs same
    have sizes := congrArg List.length glyphs
    simp only [List.length_take, List.length_cons, List.length_append] at sizes sizeLe sizeLe'
    obtain rfl : size = size' := by omega
    rfl

end Lexeme

/-! ### Cursors further down -/

/-- The position so many lines and bytes further down in the file. -/
def Position.below (lines bytes : Nat) (position : Position) : Position :=
  { position with line := position.line + lines, offset := position.offset + bytes }

namespace Cursor

/-- The cursor at the same text so many lines and bytes further down. -/
def below (lines bytes : Nat) (cursor : Cursor) : Cursor :=
  { cursor with line := cursor.line + lines, offset := cursor.offset + bytes }

/-- The cursor with more text behind. -/
def before (behind : List Glyph) (cursor : Cursor) : Cursor :=
  { cursor with rest := cursor.rest ++ behind }

variable {lines bytes : Nat} {behind : List Glyph} {cursor : Cursor}

@[simp]
theorem rest_below : (cursor.below lines bytes).rest = cursor.rest := rfl

@[simp]
theorem rest_before : (cursor.before behind).rest = cursor.rest ++ behind := rfl

theorem position_below (file : Bytes) :
    (cursor.below lines bytes).position file = (cursor.position file).below lines bytes := by
  simp [position, below, Position.below]

theorem step_below : (cursor.below lines bytes).step = cursor.step.below lines bytes := by
  obtain ⟨rest, line, column, offset⟩ := cursor
  cases rest with
  | nil => rfl
  | cons glyph rest =>
      simp only [step, below]
      split <;> simp only [Nat.add_right_comm]

theorem advance_below (size : Nat) :
    (cursor.below lines bytes).advance size = (cursor.advance size).below lines bytes := by
  induction size generalizing cursor with
  | zero => rfl
  | succ size ih => rw [advance, step_below, ih, advance]

theorem step_before (some : cursor.rest ≠ []) :
    (cursor.before behind).step = cursor.step.before behind := by
  obtain ⟨rest, line, column, offset⟩ := cursor
  cases rest with
  | nil => exact absurd rfl some
  | cons glyph rest =>
      simp only [step, before, List.cons_append]
      split <;> rfl

theorem advance_before (behind : List Glyph) {size : Nat} (sizeLe : size ≤ cursor.rest.length) :
    (cursor.before behind).advance size = (cursor.advance size).before behind := by
  induction size generalizing cursor with
  | zero => rfl
  | succ size ih =>
      have some : cursor.rest ≠ [] := by
        rintro none
        simp [none] at sizeLe
      rw [advance, step_before some, ih, advance]
      rw [rest_step, List.length_drop]
      omega

end Cursor

namespace ScanTarget

variable {target : ScanTarget} {cursor : Cursor}

theorem next_below (lines bytes : Nat) :
    target.next (cursor.below lines bytes) =
      (((target.next cursor).1.map (Token.moved (Position.below lines bytes))).mapError
          (Diagnostic.moved (Position.below lines bytes)),
        (target.next cursor).2.below lines bytes) := by
  unfold next
  simp only [Cursor.rest_below, Cursor.advance_below]
  split
  · simp [diagnostic, Diagnostic.moved, Cursor.position_below, Except.map, Except.mapError]
  · split
    · simp [Token.moved, Cursor.position_below, Except.map, Except.mapError]
    · split
      · simp [Token.moved, Cursor.position_below, Except.map, Except.mapError]
      · simp [diagnostic, Diagnostic.moved, Cursor.position_below, Except.map, Except.mapError]

/-- A gap may be begun before the cursor. -/
theorem next_advance {extra : Nat} (extraLe : extra ≤ cursor.rest.length)
    (skips : Gap.skip .between 0 cursor.rest =
      (Gap.skip .between 0 (cursor.advance extra).rest).later extra) :
    target.next cursor = target.next (cursor.advance extra) := by
  have place : ∀ size, cursor.advance (size + extra) = (cursor.advance extra).advance size :=
    fun size => by rw [Nat.add_comm, Cursor.advance_add]
  have whole : cursor.rest.length = (cursor.advance extra).rest.length + extra := by
    rw [Cursor.rest_advance, List.length_drop]
    omega
  rw [next, next, skips]
  cases Gap.skip .between 0 (cursor.advance extra).rest with
  | closed size =>
      simp only [Gap.Ending.later, place]
  | unclosed start =>
      simp only [Gap.Ending.later, place, whole]

theorem rest_next_lt {token : Token} {following : Cursor}
    (finds : target.next cursor = (.ok token, following)) (goesOn : token.kind ≠ .eof) :
    following.rest.length < cursor.rest.length := by
  unfold next at finds
  split at finds
  · cases finds
  · dsimp only at finds
    split at finds
    · cases finds
      exact absurd rfl goesOn
    · rename_i size _ first rest remains
      split at finds <;> cases finds
      rename_i kind taken reads
      obtain ⟨-, positive⟩ := Lexeme.read_ok reads
      have some := congrArg List.length remains
      rw [Cursor.rest_advance] at some ⊢
      rw [Cursor.rest_advance, List.length_drop, List.length_drop]
      rw [List.length_drop, List.length_cons] at some
      omega

/-- What the scanner finds before a newline: where the text alone ends, it goes on behind the
newline, and otherwise it finds the same. -/
theorem next_newline {token : Token} {following : Cursor} {more : List Glyph}
    (legible : Legible (cursor.rest ++ Glyph.newline :: more))
    (finds : target.next cursor = (.ok token, following)) :
    (token.kind = .eof ∧ following = cursor.advance cursor.rest.length ∧
        target.next (cursor.before (Glyph.newline :: more)) =
          target.next (following.before (Glyph.newline :: more)).step) ∨
      (token.kind ≠ .eof ∧ following.rest <:+ cursor.rest ∧
        following.advance following.rest.length = cursor.advance cursor.rest.length ∧
        target.next (cursor.before (Glyph.newline :: more)) =
          (.ok token, following.before (Glyph.newline :: more))) := by
  unfold next at finds
  split at finds
  · cases finds
  · rename_i size closed
    rcases Gap.skip_newline closed (show Glyph.newline.rune = 0x0A from rfl) more with
      ⟨atEnd, skips⟩ | ⟨inside, skips⟩
    · rw [Nat.zero_add] at atEnd
      have ends : (cursor.advance size).rest = [] := by
        rw [Cursor.rest_advance, List.drop_eq_nil_iff, atEnd]
      dsimp only at finds
      rw [ends] at finds
      cases finds
      refine .inl ⟨rfl, by rw [atEnd], ?_⟩
      have passes : (cursor.before (Glyph.newline :: more)).advance (size + 1) =
          ((cursor.advance size).before (Glyph.newline :: more)).step := by
        rw [Cursor.advance_add, Cursor.advance_before _ atEnd.le]
        rfl
      rw [← passes]
      refine next_advance (by simp [atEnd]) ?_
      have later := Gap.skip_later (size + 1) .between 0 more
      rw [Nat.zero_add, Gap.State.later] at later
      rw [Cursor.rest_advance, Cursor.rest_before, skips, atEnd]
      simpa [atEnd] using later
    · rw [Nat.zero_add] at inside
      have moved := Cursor.advance_before (Glyph.newline :: more) inside.le
      rcases start : (cursor.advance size).rest with _ | ⟨first, rest⟩
      · rw [Cursor.rest_advance, List.drop_eq_nil_iff] at start
        omega
      · dsimp only at finds
        rw [start] at finds
        dsimp only at finds
        have split := Cursor.rest_advance size cursor
        rw [start] at split
        split at finds <;> cases finds
        rename_i kind taken reads
        have legible' : Legible (first :: rest ++ Glyph.newline :: more) := by
          have dropped := legible.drop size
          rwa [List.drop_append_of_le_length inside.le, ← split] at dropped
        have takenLe := Lexeme.read_le reads
        refine .inr ⟨(Lexeme.read_ok reads).1, ?_, ?_, ?_⟩
        · rw [Cursor.rest_advance, Cursor.rest_advance, List.drop_drop]
          exact List.drop_suffix _ _
        · rw [← Cursor.advance_add, ← Cursor.advance_add, Cursor.rest_advance, start]
          congr 1
          have size_ := congrArg List.length split
          rw [List.length_drop] at size_ ⊢
          omega
        · rw [next, Cursor.rest_before, skips]
          simp only [moved, Cursor.rest_before, start, List.cons_append,
            Lexeme.read_newline legible' reads]
          rw [Cursor.advance_before _ (by rwa [start]), ← List.cons_append,
            List.take_append_of_le_length takenLe]
          rfl

/-- No more steps are needed than there are glyphs. -/
theorem tokensWithin_enough {steps : Nat} (steps' : Nat) (enough : cursor.rest.length < steps)
    (enough' : cursor.rest.length < steps') :
    target.tokensWithin steps cursor = target.tokensWithin steps' cursor := by
  induction steps generalizing steps' cursor with
  | zero => cases enough
  | succ steps ih =>
      obtain ⟨steps', rfl⟩ := Nat.exists_eq_succ_of_ne_zero (Nat.ne_zero_of_lt enough')
      rw [tokensWithin, tokensWithin]
      rcases finds : target.next cursor with ⟨diagnostic | token, following⟩
      · rfl
      · by_cases ends : token.kind = .eof
        · simp [ends]
        · have shorter := rest_next_lt finds ends
          simp [ends, ih steps' (show following.rest.length < steps by omega) (by omega)]

theorem tokensWithin_below (lines bytes steps : Nat) :
    target.tokensWithin steps (cursor.below lines bytes) =
      ((target.tokensWithin steps cursor).map
        (List.map (Token.moved (Position.below lines bytes)))).mapError
          (Diagnostic.moved (Position.below lines bytes)) := by
  induction steps generalizing cursor with
  | zero => rfl
  | succ steps ih =>
      rw [tokensWithin, tokensWithin, next_below]
      rcases target.next cursor with ⟨diagnostic | token, following⟩
      · rfl
      · simp only [Except.map, Except.mapError, Token.kind_moved, ih]
        split
        · rfl
        · cases target.tokensWithin steps following <;> rfl

/-- The tokens of a text before a newline, and behind it those of the text there. -/
theorem tokensWithin_newline {steps : Nat} (steps' : Nat) {more : List Glyph} {tokens : List Token}
    (legible : Legible (cursor.rest ++ Glyph.newline :: more)) (enough : cursor.rest.length < steps)
    (reads : target.tokensWithin steps cursor = .ok tokens)
    (enough' : (cursor.before (Glyph.newline :: more)).rest.length < steps') :
    ∃ (words : List Token) (last : Token), tokens = words ++ [last] ∧ last.kind = .eof ∧
      (∀ word ∈ words, word.kind ≠ .eof) ∧
        target.tokensWithin steps' (cursor.before (Glyph.newline :: more)) =
          (target.tokensWithin (more.length + 1)
            ((cursor.advance cursor.rest.length).before (Glyph.newline :: more)).step).map
              (words ++ ·) := by
  induction steps generalizing cursor tokens steps' with
  | zero => cases enough
  | succ steps ih =>
      obtain ⟨steps', rfl⟩ := Nat.exists_eq_succ_of_ne_zero (Nat.ne_zero_of_lt enough')
      rw [tokensWithin] at reads
      rcases finds : target.next cursor with ⟨diagnostic | token, following⟩
      · rw [finds] at reads
        cases reads
      · rw [finds] at reads
        dsimp only at reads
        rcases next_newline legible finds with ⟨ends, rfl, same⟩ | ⟨goesOn, suffix, final, same⟩
        · rw [ends] at reads
          cases reads
          refine ⟨[], token, rfl, ends, by simp, ?_⟩
          have behind :
            ((cursor.advance cursor.rest.length).before (Glyph.newline :: more)).step.rest =
              more := by
            rw [Cursor.rest_step, Cursor.rest_before, Cursor.rest_advance, List.drop_length]
            rfl
          have fewer : more.length < steps' + 1 := by
            rw [Cursor.rest_before, List.length_append, List.length_cons] at enough'
            omega
          rw [tokensWithin, same, ← tokensWithin, tokensWithin_enough (more.length + 1)
            (by rwa [behind]) (by simp [behind])]
          cases target.tokensWithin (more.length + 1) _ <;> rfl
        · have shorter := rest_next_lt finds goesOn
          obtain ⟨front, whole⟩ := suffix
          rw [← whole, List.append_assoc] at legible
          cases later : target.tokensWithin steps following with
          | error _ => simp [later, goesOn, Except.map] at reads
          | ok others =>
              obtain ⟨words, last, rfl, ends, goOn, found⟩ := ih steps' legible.of_append.2
                (by omega) later (by
                  rw [Cursor.rest_before, List.length_append] at enough' ⊢
                  omega)
              obtain rfl : token :: (words ++ [last]) = tokens := by
                simpa [later, goesOn, Except.map] using reads
              refine ⟨token :: words, last, rfl, ends, List.forall_mem_cons.mpr ⟨goesOn, goOn⟩, ?_⟩
              rw [tokensWithin, same]
              simp only [goesOn, beq_iff_eq, if_false, found, final]
              cases target.tokensWithin (more.length + 1) _ <;> rfl

/-- Behind a text and a newline the scanner stands at the beginning of a line. -/
theorem step_ofText (text after : Bytes) :
    (((Cursor.ofText text).advance (Bytes.glyphs text).length).before
        (Glyph.newline :: Bytes.glyphs after)).step =
      (Cursor.ofText after).below (text.count 0x0A + 1) (text.length + 1) := by
  have passed := (Cursor.Passed.start text).advance (Bytes.glyphs text).length
  have remains := Cursor.rest_advance (Bytes.glyphs text).length (Cursor.ofText text)
  have none : (Cursor.ofText text).rest.drop (Bytes.glyphs text).length = [] := List.drop_length
  have all : [] ++ (Cursor.ofText text).rest.take (Bytes.glyphs text).length = Bytes.glyphs text :=
    List.take_length
  rw [all] at passed
  rw [none] at remains
  obtain ⟨line, -, offset⟩ := passed
  have lines := Glyph.count_text fun _ => (Legible.ofText text).regular
  rw [Bytes.text_glyphs] at lines offset
  generalize (Cursor.ofText text).advance (Bytes.glyphs text).length = final at line offset remains
  rw [Cursor.step, Cursor.rest_before, remains]
  simp [Cursor.before, Cursor.below, Cursor.ofText, Glyph.newline, line, offset, lines]
  omega

/-- **Texts are read line by line.**  A text behind a text with tokens and a newline is read as it
is alone, by so many lines and bytes further down, behind the tokens of the text before it. -/
theorem tokens_lines (target : ScanTarget) {text : Bytes} {tokens : List Token}
    (reads : target.tokens text = .ok tokens) (after : Bytes) :
    ∃ words, tokens = words ++ [⟨.eof, [], .behind target.file text⟩] ∧
      (∀ word ∈ words, word.kind ≠ .eof) ∧
      target.tokens (text ++ 0x0A :: after) =
        match target.tokens after with
        | .ok others => .ok (words ++
            others.map (Token.moved (Position.below (text.count 0x0A + 1) (text.length + 1))))
        | .error diagnostic => .error
            (diagnostic.moved (Position.below (text.count 0x0A + 1) (text.length + 1))) := by
  have glyphs : Bytes.glyphs (text ++ 0x0A :: after) =
      Bytes.glyphs text ++ Glyph.newline :: Bytes.glyphs after := by
    rw [Bytes.glyphs_append_cons text after (by decide), Bytes.glyphs_cons_ascii (by decide)]
    rfl
  have cursor : Cursor.ofText (text ++ 0x0A :: after) =
      (Cursor.ofText text).before (Glyph.newline :: Bytes.glyphs after) := by
    rw [Cursor.ofText, glyphs]
    rfl
  have legible : Legible ((Cursor.ofText text).rest ++ Glyph.newline :: Bytes.glyphs after) := by
    have whole := Legible.ofText (text ++ 0x0A :: after)
    rwa [glyphs] at whole
  obtain ⟨words, last, rfl, ends, goOn, found⟩ :=
    tokensWithin_newline _ legible (Nat.lt_succ_self _) reads (Nat.lt_succ_self _)
  have tiled := target.tiled text
  rw [reads] at tiled
  obtain ⟨-, -, words', -, -, -, same, -⟩ := tiled
  obtain ⟨rfl, lasts⟩ := List.append_inj' same rfl
  refine ⟨words, by rw [List.singleton_inj.mp lasts], goOn, ?_⟩
  rw [tokens, cursor, found]
  change ((target.tokensWithin _ (((Cursor.ofText text).advance (Bytes.glyphs text).length).before
    _).step).map _) = _
  rw [step_ofText, tokensWithin_below]
  change (((target.tokens after).map _).mapError _).map _ = _
  cases target.tokens after <;> rfl

end ScanTarget

/-- A string literal over two lines, a number before a name, and a comment that ends within the
bytes of a rune. -/
def brokenText : Bytes := Bytes.ofString "\"\\\n\"1e// " ++ [0xC3]

theorem tokens_lines_broken : ∃ tokens others,
    (ScanTarget.mk "test.tss" ⟨"test", "<main>"⟩).tokens brokenText = .ok tokens ∧
      (ScanTarget.mk "test.tss" ⟨"test", "<main>"⟩).tokens "/=e" = .ok others ∧
      (ScanTarget.mk "test.tss" ⟨"test", "<main>"⟩).tokens (brokenText ++ 0x0A :: "/=e") =
        .ok (tokens.dropLast ++ others.map (Token.moved (Position.below 2 11))) := by
  have check : ((ScanTarget.mk "test.tss" ⟨"test", "<main>"⟩).tokens brokenText).isOk &&
      ((ScanTarget.mk "test.tss" ⟨"test", "<main>"⟩).tokens "/=e").isOk = true := by decide +kernel
  have places : brokenText.count 0x0A + 1 = 2 ∧ brokenText.length + 1 = 11 := by decide +kernel
  cases reads : (ScanTarget.mk "test.tss" ⟨"test", "<main>"⟩).tokens brokenText with
  | error _ => simp [reads, Except.isOk, Except.toBool] at check
  | ok tokens =>
      cases reads' : (ScanTarget.mk "test.tss" ⟨"test", "<main>"⟩).tokens "/=e" with
      | error _ => simp [reads', Except.isOk, Except.toBool] at check
      | ok others =>
          obtain ⟨words, rfl, -, found⟩ := ScanTarget.tokens_lines _ reads "/=e"
          rw [reads', places.1, places.2] at found
          exact ⟨_, others, rfl, rfl, by rw [found, List.dropLast_concat]⟩

end ScriptCompiler
