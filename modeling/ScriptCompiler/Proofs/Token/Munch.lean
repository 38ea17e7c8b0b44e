import ScriptCompiler.Proofs.Token.Classes

/-!
# Maximal munch

How a text is to be read: skip a gap as far as it goes, and take the longest token of any class that
begins what is left (`Lexes`).  A text can be read so in one way only, because the end of a maximal
gap is determined (`Gap.Fills.unique`) and the longest token is.  The scanner reads it in that way
(`ScanTarget.tokens_munch`).
-/

namespace ScriptCompiler

namespace Gap

/-- Where comments are closed is determined. -/
theorem Closes.unique {inner : Nat} {front front' after after' : Bytes}
    (closes : Closes inner front)
    (closes' : Closes inner front') (same : front ++ after = front' ++ after') :
    front = front' := by
  induction size : front.length using Nat.strong_induction_on generalizing inner front front' with
  | _ size ih =>
      subst size
      rcases closes.cases with ⟨rest, rfl, deeper⟩ | ⟨rfl, rfl⟩ | ⟨outer, rest, rfl, rfl, others⟩ |
        ⟨byte, rest, rfl, opens, ends, others⟩
      · rw [List.append_assoc] at same
        obtain ⟨rest', deeper', same'⟩ := closes'.of_opening same
        rw [same', ← List.append_assoc, List.append_cancel_right_eq] at same
        rw [ih _ (by rw [List.length_append]; exact Nat.lt_add_of_pos_left (Nat.succ_pos 1)) deeper
          deeper' same' rfl, same]
      · rcases closes'.cases with ⟨rest, rfl, _⟩ | ⟨_, rfl⟩ | ⟨_, _, ⟨⟩, _⟩ | ⟨_, _, _, _, ends, _⟩
        · simp [opening, closing] at same
        · rfl
        · exact absurd (closes'.mark_begins rfl same) ends
      · rw [List.append_assoc] at same
        obtain ⟨rest', others', same'⟩ := closes'.of_closing same
        rw [same', ← List.append_assoc, List.append_cancel_right_eq] at same
        rw [ih _ (by rw [List.length_append]; exact Nat.lt_add_of_pos_left (Nat.succ_pos 1)) others
          others' same' rfl, same]
      · have longer : ∀ mark : Bytes, mark.length = 2 → mark <+: byte :: (rest ++ after) →
            mark <+: byte :: rest := by
          intro mark size begins
          refine List.prefix_of_prefix_length_le begins (List.prefix_append (byte :: rest) after) ?_
          rw [size]
          exact closes.suffix.length_le
        rw [List.cons_append] at same
        obtain ⟨rest', others', same'⟩ :=
          closes'.of_cons (fun begins => opens (longer _ rfl begins))
          (fun begins => ends (longer _ rfl begins)) same
        rw [same', ← List.cons_append, List.append_cancel_right_eq] at same
        rw [ih _ (by simp) others others' same' rfl, same]

theorem Body.unique {body body' after after' : Bytes} (isBody : Body body) (isBody' : Body body')
    (same : body ++ closing ++ after = body' ++ closing ++ after') : body = body' := by
  have closes : Closes 0 (body ++ closing) := ⟨body, isBody, rfl⟩
  exact List.append_cancel_right (closes.unique ⟨body', isBody', rfl⟩ same)

/-- A comment to the end of the line ends where the line does. -/
theorem comment_unique {comment comment' after after' : Bytes} (within : 0x0A ∉ comment)
    (within' : 0x0A ∉ comment') (ends : ∀ byte ∈ after.head?, byte = 0x0A)
    (ends' : ∀ byte ∈ after'.head?, byte = 0x0A) (same : comment ++ after = comment' ++ after') :
    comment = comment' := by
  have split : ∀ {comment after : Bytes}, 0x0A ∉ comment → (∀ byte ∈ after.head?, byte = 0x0A) →
      (comment ++ after).takeWhile (fun byte => byte != 0x0A) = comment := by
    intro comment after within ends
    rw [List.takeWhile_append_of_pos (fun byte member => by
      simpa using ne_of_mem_of_not_mem member within)]
    cases after with
    | nil => simp
    | cons byte after => simp [ends byte rfl]
  rw [← split within ends, same, split within' ends']

/-- Where a maximal gap can end: before something with which no gap goes on, and before a comment
without an end. -/
def Stops (rest : Bytes) : Prop := ¬ Begins rest ∨ Unclosed rest

theorem Stops.not_blank {byte : UInt8} {rest : Bytes} (stops : Stops (byte :: rest)) :
    isBlank byte.toNat = false := by
  rw [Bool.eq_false_iff]
  intro blank
  rcases stops with ends | ⟨inside, same, -⟩
  · exact ends (.inl ⟨byte, rfl, blank⟩)
  · obtain rfl : byte = 0x2F := (List.cons.inj same).1
    exact absurd blank (by decide)

theorem Stops.not_line {rest : Bytes} (stops : Stops (lineMark ++ rest)) : False := by
  rcases stops with ends | ⟨inside, same, -⟩
  · exact ends (.inr (.inl (List.prefix_append _ _)))
  · simp [lineMark, opening] at same

theorem Stops.not_block {body rest : Bytes} (isBody : Body body)
    (stops : Stops (opening ++ body ++ closing ++ rest)) : False := by
  rcases stops with ends | ⟨inside, same, unclosed⟩
  · exact ends (.inr (.inr (by simp)))
  · refine unclosed body rest isBody ?_
    rw [List.append_assoc, List.append_assoc] at same
    rw [← List.append_cancel_left same, List.append_assoc]

theorem not_isBlank_slash : isBlank (0x2F : UInt8).toNat = false := by decide

/-- Nothing that fills a gap begins where a gap has to end. -/
theorem Fills.eq_nil {rest gap after : Bytes} (fills : Fills after gap) (stops : Stops rest)
    (same : rest = gap ++ after) : gap = [] := by
  cases fills with
  | nil => rfl
  | blank blank _ =>
      subst same
      rw [stops.not_blank] at blank
      cases blank
  | line _ _ _ =>
      subst same
      rw [List.append_assoc, List.append_assoc] at stops
      exact stops.not_line.elim
  | block isBody _ =>
      subst same
      rw [List.append_assoc] at stops
      exact (stops.not_block isBody).elim

/-- The end of a maximal gap is determined. -/
theorem Fills.unique {gap gap' rest rest' : Bytes} (fills : Fills rest gap)
    (fills' : Fills rest' gap')
    (stops : Stops rest) (stops' : Stops rest') (same : gap ++ rest = gap' ++ rest') :
    gap = gap' := by
  induction fills generalizing gap' with
  | nil => exact (fills'.eq_nil stops same).symm
  | @blank byte gap blank _ ih =>
      cases fills' with
      | nil =>
          subst same
          rw [stops'.not_blank] at blank
          cases blank
      | blank _ later =>
          obtain ⟨rfl, tails⟩ := List.cons.inj same
          rw [ih later tails]
      | line _ _ _ =>
          obtain ⟨rfl, -⟩ := List.cons.inj same
          rw [not_isBlank_slash] at blank
          cases blank
      | block _ _ =>
          obtain ⟨rfl, -⟩ := List.cons.inj same
          rw [not_isBlank_slash] at blank
          cases blank
  | @line comment gap within ends fills ih =>
      cases fills' with
      | nil =>
          subst same
          rw [List.append_assoc, List.append_assoc] at stops'
          exact stops'.not_line.elim
      | blank blank _ =>
          obtain ⟨rfl, -⟩ := List.cons.inj same
          rw [not_isBlank_slash] at blank
          cases blank
      | @line comment' gap' within' ends' later =>
          simp only [List.append_assoc, List.append_cancel_left_eq] at same
          obtain rfl := comment_unique within within' ends ends' same
          rw [ih later (List.append_cancel_left same)]
      | block _ _ => simp [lineMark, opening] at same
  | @block body gap isBody fills ih =>
      cases fills' with
      | nil =>
          subst same
          rw [List.append_assoc] at stops'
          exact (stops'.not_block isBody).elim
      | blank blank _ =>
          obtain ⟨rfl, -⟩ := List.cons.inj same
          rw [not_isBlank_slash] at blank
          cases blank
      | line _ _ _ => simp [lineMark, opening] at same
      | @block body' gap' isBody' later =>
          simp only [List.append_assoc, List.append_cancel_left_eq] at same
          obtain rfl := isBody.unique isBody' (by simpa only [List.append_assoc] using same)
          rw [ih later (List.append_cancel_left (List.append_cancel_left same))]

end Gap

mutual

/-- Reading a text by maximal munch: the kinds and lexemes of its tokens, and whether they go to its
end. -/
inductive Lexes : Bytes → List (TokenKind × Bytes) → Bool → Prop where
  /-- A maximal gap, and what is read behind it. -/
  | gap {gap rest : Bytes} {words : List (TokenKind × Bytes)} {whole : Bool} :
      Gap.Fills rest gap → LexesOn rest words whole → Lexes (gap ++ rest) words whole

/-- Reading on at the end of a maximal gap. -/
inductive LexesOn : Bytes → List (TokenKind × Bytes) → Bool → Prop where
  /-- The text is at its end. -/
  | ended : LexesOn [] [] true
  /-- The longest token of any class is taken. -/
  | token {lexeme after : Bytes} {kind : TokenKind} {words : List (TokenKind × Bytes)}
      {whole : Bool} :
      ¬ Gap.Begins (lexeme ++ after) → Lexeme.Longest (lexeme ++ after) kind lexeme →
      Lexes after words whole → LexesOn (lexeme ++ after) ((kind, lexeme) :: words) whole
  /-- No token begins. -/
  | stuck {rest : Bytes} : ¬ Gap.Begins rest → rest ≠ [] →
      (∀ kind lexeme, Lexeme.Class kind lexeme → ¬ lexeme <+: rest) → LexesOn rest [] false
  /-- A block comment begins and is never closed. -/
  | unclosed {rest : Bytes} : Gap.Unclosed rest → LexesOn rest [] false

end

theorem Gap.not_begins_nil : ¬ Begins [] := by
  rintro (⟨byte, none, _⟩ | begins | begins)
  · cases none
  · simp [lineMark] at begins
  · simp [opening] at begins

theorem Gap.Unclosed.begins {text : Bytes} (unclosed : Unclosed text) : Begins text := by
  obtain ⟨inside, rfl, -⟩ := unclosed
  exact .inr (.inr (List.prefix_append _ _))

theorem LexesOn.stops {rest : Bytes} {words : List (TokenKind × Bytes)} {whole : Bool}
    (lexes : LexesOn rest words whole) : Gap.Stops rest := by
  cases lexes with
  | ended => exact .inl Gap.not_begins_nil
  | token ends _ _ => exact .inl ends
  | stuck ends _ _ => exact .inl ends
  | unclosed unclosed => exact .inr unclosed

theorem Lexes.exists_gap {text : Bytes} {words : List (TokenKind × Bytes)} {whole : Bool}
    (lexes : Lexes text words whole) :
    ∃ gap rest, text = gap ++ rest ∧ Gap.Fills rest gap ∧ LexesOn rest words whole := by
  cases lexes with
  | gap fills lexes => exact ⟨_, _, rfl, fills, lexes⟩

theorem LexesOn.cases {rest : Bytes} {words : List (TokenKind × Bytes)} {whole : Bool}
    (lexes : LexesOn rest words whole) :
    (rest = [] ∧ words = [] ∧ whole = true) ∨
    (∃ kind lexeme after others, ¬ Gap.Begins rest ∧ Lexeme.Longest rest kind lexeme ∧
      rest = lexeme ++ after ∧ words = (kind, lexeme) :: others ∧ Lexes after others whole) ∨
    (words = [] ∧ whole = false ∧ rest ≠ [] ∧
      ∀ kind lexeme, Lexeme.Class kind lexeme → ¬ lexeme <+: rest) ∨
    words = [] ∧ whole = false ∧ Gap.Begins rest := by
  cases lexes with
  | ended => exact .inl ⟨rfl, rfl, rfl⟩
  | token ends longest lexes => exact .inr (.inl ⟨_, _, _, _, ends, longest, rfl, rfl, lexes⟩)
  | stuck ends some none => exact .inr (.inr (.inl ⟨rfl, rfl, some, none⟩))
  | unclosed unclosed => exact .inr (.inr (.inr ⟨rfl, rfl, unclosed.begins⟩))

mutual

/-- A text is read in one way. -/
theorem Lexes.unique {text : Bytes} {words words' : List (TokenKind × Bytes)} {whole whole' : Bool}
    (lexes : Lexes text words whole) (lexes' : Lexes text words' whole') :
    words = words' ∧ whole = whole' := by
  cases lexes with
  | gap fills lexes =>
      obtain ⟨_, _, same, fills', lexes'⟩ := lexes'.exists_gap
      obtain rfl := fills.unique fills' lexes.stops lexes'.stops same
      obtain rfl := List.append_cancel_left same
      exact lexes.unique lexes'
termination_by (words.length, 1)

theorem LexesOn.unique {rest : Bytes} {words words' : List (TokenKind × Bytes)}
    {whole whole' : Bool} (lexes : LexesOn rest words whole) (lexes' : LexesOn rest words' whole') :
    words = words' ∧ whole = whole' := by
  have others := lexes'.cases
  cases lexes with
  | ended =>
      rcases others with ⟨_, rfl, rfl⟩ | ⟨_, _, _, _, _, longest, same, _⟩ | ⟨_, _, some, _⟩ |
        ⟨_, _, begins⟩
      · exact ⟨rfl, rfl⟩
      · exact absurd (List.append_eq_nil_iff.mp same.symm).1 longest.isClass.ne_nil
      · exact absurd rfl some
      · exact absurd begins Gap.not_begins_nil
  | token ends longest lexes =>
      rcases others with
        ⟨none, _⟩ | ⟨_, _, _, _, _, longest', same, rfl, lexes'⟩ | ⟨_, _, _, none⟩ |
        ⟨_, _, begins⟩
      · exact absurd (List.append_eq_nil_iff.mp none).1 longest.isClass.ne_nil
      · obtain ⟨rfl, rfl⟩ := longest.unique longest'
        obtain rfl := List.append_cancel_left same
        obtain ⟨rfl, rfl⟩ := lexes.unique lexes'
        exact ⟨rfl, rfl⟩
      · exact absurd longest.begins (none _ _ longest.isClass)
      · exact absurd begins ends
  | stuck ends some none =>
      rcases others with ⟨none', _⟩ | ⟨_, _, _, _, _, longest, _⟩ | ⟨rfl, rfl, _⟩ | ⟨rfl, rfl, _⟩
      · exact absurd none' some
      · exact absurd longest.begins (none _ _ longest.isClass)
      · exact ⟨rfl, rfl⟩
      · exact ⟨rfl, rfl⟩
  | unclosed unclosed =>
      rcases others with ⟨rfl, _⟩ | ⟨_, _, _, _, ends, _⟩ | ⟨rfl, rfl, _⟩ | ⟨rfl, rfl, _⟩
      · exact absurd unclosed.begins Gap.not_begins_nil
      · exact absurd unclosed.begins ends
      · exact ⟨rfl, rfl⟩
      · exact ⟨rfl, rfl⟩
termination_by (words.length, 0)

end

namespace ScanTarget

/-- What one step of the scanner does at a cursor: it skips a maximal gap, and then it is at the end
of the text, takes the longest token or fails because none begins or a comment has no end. -/
theorem next_munches (target : ScanTarget) {cursor : Cursor} (legible : Legible cursor.rest) :
    ∃ gap rest, Glyph.text cursor.rest = gap ++ rest ∧ Gap.Fills rest gap ∧
      match target.next cursor with
      | (.error _, _) => LexesOn rest [] false
      | (.ok token, following) => (rest = [] ∧ token.shape = (.eof, [])) ∨
          (token.kind ≠ .eof ∧ ¬ Gap.Begins rest ∧ Lexeme.Longest rest token.kind token.lexeme ∧
            rest = token.lexeme ++ Glyph.text following.rest ∧ Legible following.rest ∧
            following.rest.length < cursor.rest.length) := by
  have reads := Gap.skip_reads .between 0 fun glyph member => legible.regular member
  rw [next]
  cases skips : Gap.skip .between 0 cursor.rest with
  | unclosed start =>
      rw [skips] at reads
      rcases reads with ⟨_, ⟨⟩, _⟩ | ⟨skipped, rest, split, -, fills, unclosed⟩
      exact ⟨_, _, by rw [split, Glyph.text_append], fills, .unclosed unclosed⟩
  | closed size =>
      rw [skips] at reads
      obtain ⟨skipped, rest, split, rfl, fills, ends⟩ := reads
      refine ⟨_, _, by rw [split, Glyph.text_append], fills, ?_⟩
      have remains : (cursor.advance (0 + skipped.length)).rest = rest := by
        rw [Nat.zero_add, Cursor.rest_advance, split, List.drop_left]
      have later : Legible rest := by
        rw [split] at legible
        exact legible.of_append.2
      dsimp only
      generalize cursor.advance (0 + skipped.length) = start at remains
      rw [remains]
      cases rest with
      | nil => exact .inl ⟨rfl, rfl⟩
      | cons first rest =>
          dsimp only
          cases reads : Lexeme.read first rest with
          | mk result size =>
              cases result with
              | error fault =>
                  refine .stuck ends ?_ fun kind lexeme isClass =>
                    Lexeme.read_stuck later reads isClass
                  obtain ⟨lead, more, spelt⟩ := (later.regular List.mem_cons_self).exists_cons
                  simp [spelt]
              | ok kind =>
                  obtain ⟨notEnd, nonempty⟩ := Lexeme.read_ok reads
                  refine .inr ⟨notEnd, ends, Lexeme.read_longest later reads, ?_, ?_, ?_⟩
                  · rw [Cursor.rest_advance, remains, ← Glyph.text_append, List.take_append_drop]
                  · rw [Cursor.rest_advance, remains]
                    exact later.drop size
                  · rw [Cursor.rest_advance, remains, split, List.length_drop, List.length_append,
                      List.length_cons]
                    omega

/-- The tokens from a cursor on are those of maximal munch, the steps of the scanner being its
tokens up to the first fault. -/
theorem tokensWithin_munch (target : ScanTarget) {steps : Nat} {cursor : Cursor}
    (legible : Legible cursor.rest) (enough : cursor.rest.length < steps) :
    ∃ words whole, Lexes (Glyph.text cursor.rest) words whole ∧
      (target.steps words.length cursor).map (fun step => step.toOption.map Token.shape) =
        words.map some ∧
      (target.tokensWithin steps cursor).toOption.map (fun tokens => tokens.map Token.shape) =
        if whole then some (words ++ [(TokenKind.eof, [])]) else none := by
  induction steps generalizing cursor with
  | zero => cases enough
  | succ steps ih =>
      obtain ⟨gap, rest, split, fills, munches⟩ := target.next_munches legible
      rw [split, tokensWithin]
      rcases step : target.next cursor with ⟨diagnostic | token, following⟩ <;> rw [step] at munches
      · exact ⟨[], false, .gap fills munches, rfl, rfl⟩
      · rcases munches with ⟨rfl, isEnd⟩ | ⟨notEnd, ends, longest, parts, later, shorter⟩
        · have isEof : token.kind = .eof := congrArg Prod.fst isEnd
          refine ⟨[], true, .gap fills .ended, rfl, ?_⟩
          simp [isEof, Except.toOption, isEnd]
        · obtain ⟨words, whole, lexes, stepped, found⟩ := ih later (by omega)
          refine ⟨token.shape :: words, whole, .gap fills ?_, ?_, ?_⟩
          · rw [parts] at ends longest ⊢
            exact .token ends longest lexes
          · simp only [List.length_cons, ScanTarget.steps, step, List.map_cons, stepped]
            rfl
          · have goesOn : (token.kind == .eof) = false := by simpa using notEnd
            dsimp only
            rw [goesOn]
            cases others : target.tokensWithin steps following with
            | error _ =>
                rw [others] at found
                cases whole with
                | false => rfl
                | true => cases found
            | ok tokens =>
                rw [others] at found
                cases whole with
                | false => cases found
                | true => exact congrArg (Option.map (token.shape :: ·)) found

/-- A text is read by maximal munch, up to its end or to the first fault. -/
theorem exists_lexes (target : ScanTarget) (text : Bytes) :
    ∃ words whole, Lexes text words whole ∧
      (target.steps words.length (.ofText text)).map (fun step => step.toOption.map Token.shape) =
        words.map some ∧
      (target.tokens text).toOption.map (fun tokens => tokens.map Token.shape) =
        if whole then some (words ++ [(TokenKind.eof, [])]) else none := by
  have legible : Legible (Cursor.ofText text).rest := Legible.ofText text
  obtain ⟨words, whole, lexes, stepped, found⟩ :=
    target.tokensWithin_munch legible (Nat.lt_succ_self _)
  rw [Cursor.ofText, Bytes.text_glyphs] at lexes
  exact ⟨words, whole, lexes, stepped, found⟩

/-- What a text can be read as is what it is read as. -/
theorem shapes_of_lexes (target : ScanTarget) {text : Bytes} {words : List (TokenKind × Bytes)}
    {whole : Bool} (lexes : Lexes text words whole) :
    (target.tokens text).toOption.map (fun tokens => tokens.map Token.shape) =
      if whole then some (words ++ [(TokenKind.eof, [])]) else none := by
  obtain ⟨words', whole', lexes', -, found⟩ := target.exists_lexes text
  obtain ⟨rfl, rfl⟩ := lexes.unique lexes'
  exact found

/-- **The scanner reads by maximal munch.**  There is one way to read a text by maximal munch.  Its
tokens are what the steps of the scanner find, and the text has tokens exactly if they go to its
end; they are then followed by one token for the end. -/
theorem tokens_munch (target : ScanTarget) (text : Bytes) :
    ∃ words whole, (∀ words' whole', Lexes text words' whole' ↔ words' = words ∧ whole' = whole) ∧
      (target.steps words.length (.ofText text)).map (fun step => step.toOption.map Token.shape) =
        words.map some ∧
      (target.tokens text).toOption.map (fun tokens => tokens.map Token.shape) =
        if whole then some (words ++ [(.eof, [])]) else none := by
  obtain ⟨words, whole, lexes, stepped, found⟩ := target.exists_lexes text
  refine ⟨words, whole, fun words' whole' => ⟨fun lexes' => lexes'.unique lexes, ?_⟩,
    stepped, found⟩
  rintro ⟨rfl, rfl⟩
  exact lexes

end ScanTarget

end ScriptCompiler
