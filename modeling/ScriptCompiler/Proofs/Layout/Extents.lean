import ScriptCompiler.Compilation.Unit
import ScriptCompiler.Proofs.Syntax.Nodes
import ScriptCompiler.Proofs.Token.Spacing
import ScriptCompiler.Proofs.Token.Strings
import ScriptCompiler.Proofs.Token.Tiling

/-!
# Where nodes begin and end

The tokens of a text lie apart, and the runs of tokens of the nodes of a tree are nested; so the
extents of the nodes are nested too (`SourceFile.spans_nest`).  A node begins where its first token
begins.  It ends where its last token ends, with two exceptions: a jump ends with its keyword and
not with its semicolon, and a literal with a newline in it is taken to lie on one line
(`SourceFile.extents_exact_iff`).
-/

namespace ScriptCompiler

/-! ### Tokens that lie apart -/

/-- Each token ends before the next one begins. -/
def Token.Apart (tokens : List Token) : Prop :=
  tokens.Pairwise fun token later => token.last.offset < later.position.offset

theorem Token.offset_last {token : Token} (nonempty : token.lexeme ≠ []) :
    token.last.offset = token.position.offset + token.length - 1 := by
  have positive := List.length_pos_iff.mpr nonempty
  have some : (token.length == 0) = false := by
    rw [Token.length, beq_eq_false_iff_ne]
    omega
  rw [Token.last, some]
  simp only [Bool.false_eq_true, if_false]
  omega

theorem Token.line_last (token : Token) : token.last.line = token.position.line := by
  unfold Token.last
  split <;> rfl

/-- No token ends before it begins. -/
theorem Token.offset_le_last (token : Token) : token.position.offset ≤ token.last.offset := by
  by_cases empty : token.lexeme = []
  · simp [Token.last, Token.length, empty]
  · have positive := List.length_pos_iff.mpr empty
    rw [Token.offset_last empty, Token.length]
    omega

/-- Tokens that tile a text lie apart, and end before the end of what they tile. -/
theorem Tiles.apart {file text front : Bytes} {tokens : List Token}
    (tiles : Tiles file text front tokens) :
    Token.Apart tokens ∧ ∀ token ∈ tokens, token.last.offset < front.length := by
  induction tiles with
  | nil => exact ⟨List.Pairwise.nil, by simp⟩
  | @token front gap rest tokens token _ _ _ _ nonempty _ position ih =>
      obtain ⟨apart, before⟩ := ih
      have offset : token.position.offset = (front ++ gap).length := by
        rw [position]
        rfl
      have ends := Token.offset_last nonempty
      have positive := List.length_pos_iff.mpr nonempty
      rw [offset, Token.length, List.length_append] at ends
      refine ⟨List.pairwise_append.mpr ⟨apart, List.pairwise_singleton _ _, ?_⟩, ?_⟩
      · intro earlier member last isLast
        have within := before earlier member
        rw [List.mem_singleton.mp isLast, offset, List.length_append]
        omega
      · intro other member
        rw [List.length_append, List.length_append]
        rcases List.mem_append.mp member with earlier | isLast
        · have within := before other earlier
          omega
        · rw [List.mem_singleton.mp isLast, ends]
          omega

theorem Tiles.kind_ne_eof {file text front : Bytes} {tokens : List Token}
    (tiles : Tiles file text front tokens) : ∀ token ∈ tokens, (token.kind != .eof) = true := by
  induction tiles with
  | nil => simp
  | token _ _ _ _ _ notEnd _ ih =>
      intro token member
      rcases List.mem_append.mp member with earlier | last
      · exact ih token earlier
      · rw [List.mem_singleton.mp last]
        simpa using notEnd

/-! ### Tokens and their classes -/

namespace Lexeme

theorem read_replacement {first : Glyph} (broken : first.rune = Rune.replacement)
    (rest : List Glyph) :
    read first rest = (.error (.unexpected Rune.replacement), 1) := by
  have noWord : isWordStart Rune.replacement = false := by decide +kernel
  have noPair : (rest.head?.bind fun second => ofMarks? Rune.replacement second.rune) = none :=
    Option.bind_eq_none_iff.mpr fun _ _ => rfl
  have others : Rune.isDigit Rune.replacement = false ∧ (Rune.replacement == 0x22) = false ∧
      ofMark? Rune.replacement = none := by decide
  simp [read, broken, noWord, others, noPair]

/-- The first byte of a token continues no rune. -/
theorem Class.begins {kind : TokenKind} {lexeme : Bytes} (isClass : Class kind lexeme) :
    ∃ byte rest, lexeme = byte :: rest ∧ Glyph.isContinuation byte = false := by
  obtain ⟨first, others, same, kind', size, reads, -, -⟩ := isClass.readsBeyond []
  rw [List.append_nil] at same
  cases lexeme with
  | nil => exact absurd rfl isClass.ne_nil
  | cons byte rest =>
      refine ⟨byte, rest, rfl, ?_⟩
      have isFirst : Glyph.first byte rest = first := (List.cons.inj same).1
      have formed : first.isIllFormed = false := by
        rw [Bool.eq_false_iff]
        intro broken
        have member : first ∈ Bytes.glyphs (byte :: rest) := by simp [same]
        rw [read_replacement (Bytes.rune_of_isIllFormed member broken)] at reads
        cases reads
      exact Glyph.not_isContinuation_of_first (isFirst ▸ formed)

end Lexeme

/-- The marks that close nodes are single bytes. -/
theorem Token.last_of_closing {token : Token} (isClass : Lexeme.Class token.kind token.lexeme)
    (closing : token.kind ∈ TokenKind.closings) : token.last = token.position := by
  obtain ⟨kind, lexeme, position⟩ := token
  dsimp only at isClass closing
  have single : lexeme.length = 1 ∧ Bytes.runeCount lexeme = 1 := by
    cases isClass with
    | mark _ =>
        simp only [TokenKind.closings, List.mem_cons, List.not_mem_nil, or_false] at closing
        rcases closing with rfl | rfl | rfl <;> decide +kernel
    | keyword reserved =>
        have apart : ∀ kind ∈ TokenKind.keywords, kind ∉ TokenKind.closings := by decide
        exact absurd closing (apart kind reserved)
    | identifier | int | float | string => exact absurd closing (by decide)
  simp [Token.last, Token.length, single]

/-! ### The last rune of a token -/

/-- The text before a token. -/
def Token.before (token : Token) (text : Bytes) : Bytes := text.take token.position.offset.toNat

/-- The text up to the end of a token. -/
def Token.upTo (token : Token) (text : Bytes) : Bytes :=
  text.take (token.position.offset.toNat + token.length)

theorem Token.Located.upTo_eq {file text : Bytes} {token : Token}
    (located : token.Located file text) :
    token.upTo text = token.before text ++ token.lexeme := by
  rw [Token.upTo, List.take_add, located.lexeme, Token.before]

/-- The line and the column of the last rune of a text, and the offset of its last byte. -/
def Position.ofLast (file text : Bytes) : Position :=
  { Position.behind file (Glyph.text (Bytes.glyphs text).dropLast) with offset := text.length - 1 }

theorem Bytes.lastLine_append (before : Bytes) {inside : Bytes} (oneLine : 0x0A ∉ inside) :
    lastLine (before ++ inside) = lastLine before ++ inside := by
  induction inside using List.reverseRecOn with
  | nil => simp
  | append_singleton inside byte ih =>
      rw [List.mem_append, not_or, List.mem_singleton] at oneLine
      rw [← List.append_assoc, lastLine,
        List.rtakeWhile_concat_pos _ _ _ (by simpa using Ne.symm oneLine.2),
        ← List.append_assoc, ← ih oneLine.1, lastLine]

section Last

variable {file before : Bytes} {token : Token} (isClass : Lexeme.Class token.kind token.lexeme)
  (place : token.position = .behind file before)

include place isClass

theorem Token.offset_last_eq : token.last.offset = (before ++ token.lexeme).length - 1 := by
  rw [Token.offset_last isClass.ne_nil, place, List.length_append, Token.length]
  change (before.length : Int) + token.lexeme.length - 1 = _
  omega

/-- A token ends where its last rune stands exactly if it lies on one line. -/
theorem Token.last_eq_ofLast_iff :
    token.last = .ofLast file (before ++ token.lexeme) ↔ 0x0A ∉ token.lexeme := by
  have offset := Token.offset_last_eq isClass place
  obtain ⟨byte, rest, spelt, begins⟩ := isClass.begins
  have glyphs : Bytes.glyphs (before ++ token.lexeme) =
      Bytes.glyphs before ++ Bytes.glyphs token.lexeme := by
    rw [spelt, Bytes.glyphs_append_cons _ _ begins]
  obtain ⟨front, final, split⟩ : ∃ front final, Bytes.glyphs token.lexeme = front ++ [final] := by
    rcases List.eq_nil_or_concat (Bytes.glyphs token.lexeme) with none | ⟨front, final, some⟩
    · rw [spelt] at none
      cases none
    · exact ⟨front, final, by simpa using some⟩
  have whole : token.lexeme = Glyph.text front ++ final.bytes := by
    have same := Bytes.text_glyphs token.lexeme
    rw [split, Glyph.text_append, Glyph.text_cons, Glyph.text_nil, List.append_nil] at same
    exact same.symm
  have legible : Legible front := by
    have all := Legible.ofText token.lexeme
    rw [split] at all
    exact all.of_append.1
  have last : final ∈ Bytes.glyphs token.lexeme := by simp [split]
  have regular : final.Regular := Bytes.regular_of_mem_glyphs last
  have ofLast : Position.ofLast file (before ++ token.lexeme) =
      { Position.behind file (before ++ Glyph.text front) with
        offset := (before ++ token.lexeme).length - 1 } := by
    rw [Position.ofLast, glyphs, split, ← List.append_assoc, List.dropLast_concat,
      Glyph.text_append,
      Bytes.text_glyphs]
  constructor
  · intro same newline
    -- Only string literals hold newlines, and they end with a quote on a later line.
    have isString := isClass.eq_string (by decide) newline
    obtain ⟨inside, ends⟩ := isClass.ends_quote isString
    have quote : 0x22 ∈ final.bytes := by
      obtain ⟨lead, more, formed⟩ := regular.exists_cons
      have nonempty : final.bytes ≠ [] := by simp [formed]
      have isLast := congrArg List.getLast? (whole.symm.trans ends)
      rw [List.getLast?_append_of_ne_nil _ nonempty, List.getLast?_concat] at isLast
      exact List.mem_of_getLast? isLast
    have inFront : 0x0A ∈ Glyph.text front := by
      rw [whole, List.mem_append] at newline
      refine newline.resolve_right fun inFinal => ?_
      have impossible :=
        (regular.rune (by decide) inFinal).symm.trans (regular.rune (by decide) quote)
      exact absurd impossible (by decide)
    have lines := congrArg Position.line (same.trans ofLast)
    have later := List.count_pos_iff.mpr inFront
    rw [Token.line_last, place] at lines
    simp only [Position.behind, List.count_append] at lines
    omega
  · intro oneLine
    have oneLine' : 0x0A ∉ Glyph.text front := fun member =>
      oneLine (whole ▸ List.mem_append_left _ member)
    have columns : Bytes.runeCount (Bytes.lastLine before ++ Glyph.text front) =
        Bytes.runeCount (Bytes.lastLine before) + front.length := by
      cases inside : Glyph.text front with
      | nil =>
          rw [← legible, inside]
          simp [Bytes.glyphs, Bytes.glyphsAfter]
      | cons lead more =>
          have isLead : lead = byte := by
            rw [spelt, inside] at whole
            exact (List.cons.inj whole).1.symm
          rw [Bytes.runeCount, Bytes.glyphs_append_cons _ _ (isLead ▸ begins), List.length_append,
            ← inside, legible, Bytes.runeCount]
    have size : Bytes.runeCount token.lexeme = front.length + 1 := by
      rw [Bytes.runeCount, split, List.length_append, List.length_singleton]
    have some : (token.length == 0) = false := by
      rw [Token.length, spelt]
      rfl
    rw [ofLast, ← offset]
    simp only [Token.last, some, Bool.false_eq_true, if_false, place, size, Position.behind,
      List.count_append, List.count_eq_zero.mpr oneLine', Bytes.lastLine_append _ oneLine', columns]
    simp only [Position.mk.injEq, true_and, and_true]
    omega

end Last

/-! ### Extents of nodes -/

namespace SyntaxNode

variable {tokens : List Token} {nodes : List SyntaxNode} {node : SyntaxNode}

/-- How the extents of some nodes lie within that of their parent, by offset. -/
structure Nest (first last : Position) (children : List SyntaxNode) : Prop where
  /-- No child begins before the parent. -/
  begins : ∀ child ∈ children, first.offset ≤ child.first.offset
  /-- No child ends before it begins. -/
  ordered : ∀ child ∈ children, child.first.offset ≤ child.last.offset
  /-- No child ends behind the parent. -/
  ends : ∀ child ∈ children, child.last.offset ≤ last.offset
  /-- Each child ends before the next one begins. -/
  apart : children.Pairwise fun child next => child.last.offset < next.first.offset

theorem children_of_isJump (jump : node.isJump = true) : node.children = [] := by
  unfold isJump at jump
  split at jump <;> first | rfl | cases jump

/-- A node that is no jump ends with the last token of its run, and a jump ends before that
token. -/
theorem Derives.exists_final (derived : node.Derives tokens) (apart : Token.Apart tokens)
    (closings : ∀ token ∈ tokens, token.kind ∈ TokenKind.closings → token.last = token.position) :
    ∃ (earlier : List Token) (last : Token), tokens = earlier ++ [last] ∧
      (node.isJump = false → node.last = last.last) ∧
        (node.isJump = true → node.last.offset < last.last.offset) := by
  cases jump : node.isJump with
  | true =>
      obtain ⟨keyword, semicolon, rfl, -, ends⟩ := derived.exists_keyword jump
      refine ⟨[keyword], semicolon, rfl, by simp, fun _ => ?_⟩
      have before := (List.pairwise_cons.mp apart).1 semicolon (List.mem_singleton_self _)
      have within := semicolon.offset_le_last
      rw [ends]
      omega
  | false =>
      obtain ⟨earlier, last, rfl, ends⟩ := derived.exists_last jump
      refine ⟨earlier, last, rfl, fun _ => ?_, by simp⟩
      rcases ends with ends | ⟨closing, ends⟩
      · exact ends
      · rw [ends, closings last (by simp) closing]

/-- A node begins with a token of its run and ends with one, and if it is no jump there is no token
before the former and none behind the latter. -/
theorem Derives.exists_ends (derived : node.Derives tokens) (apart : Token.Apart tokens)
    (closings : ∀ token ∈ tokens, token.kind ∈ TokenKind.closings → token.last = token.position) :
    ∃ first ∈ tokens, ∃ last ∈ tokens, node.first = first.position ∧ node.last = last.last ∧
      (∀ token ∈ tokens, first.position.offset ≤ token.position.offset) ∧
      (node.isJump = false → ∀ token ∈ tokens, token.last.offset ≤ last.last.offset) := by
  obtain ⟨first, others, split, begins⟩ := derived.exists_first
  have least : ∀ token ∈ tokens, first.position.offset ≤ token.position.offset := by
    rw [split] at apart ⊢
    intro token member
    rcases List.mem_cons.mp member with rfl | later
    · exact Int.le_refl _
    · have before := (List.pairwise_cons.mp apart).1 token later
      have within := first.offset_le_last
      omega
  refine ⟨first, by simp [split], ?_⟩
  cases jump : node.isJump with
  | true =>
      obtain ⟨keyword, semicolon, both, -, ends⟩ := derived.exists_keyword jump
      exact ⟨keyword, by simp [both], begins, ends, least, by simp⟩
  | false =>
      obtain ⟨earlier, last, whole, ends, -⟩ := derived.exists_final apart closings
      refine ⟨last, by simp [whole], begins, ends jump, least, fun _ token member => ?_⟩
      rw [whole] at apart member
      rcases List.mem_append.mp member with earlier | isToken
      · have before :=
          (List.pairwise_append.mp apart).2.2 token earlier last (List.mem_singleton_self _)
        have within := last.offset_le_last
        omega
      · rw [List.mem_singleton.mp isToken]

/-- Nodes that are spread over tokens lie apart, and each begins and ends with one of the tokens. -/
theorem Spread.apart (spread : Spread tokens nodes) (apart : Token.Apart tokens)
    (closings : ∀ token ∈ tokens, token.kind ∈ TokenKind.closings → token.last = token.position) :
    (nodes.Pairwise fun node next => node.last.offset < next.first.offset) ∧
      ∀ node ∈ nodes, ∃ first ∈ tokens, ∃ last ∈ tokens, node.first = first.position ∧
        node.last = last.last ∧ first.position.offset ≤ last.position.offset := by
  induction spread with
  | none => exact ⟨List.Pairwise.nil, by simp⟩
  | @more gap run rest node nodes derived _ ih =>
      obtain ⟨-, apart, -⟩ := List.pairwise_append.mp apart
      obtain ⟨apartRun, apartRest, between⟩ := List.pairwise_append.mp apart
      obtain ⟨first, isFirst, last, isLast, begins, ends, least, -⟩ :=
        derived.exists_ends apartRun fun token member => closings token (by simp [member])
      obtain ⟨pairwise, others⟩ :=
        ih apartRest fun token member => closings token (by simp [member])
      refine ⟨List.pairwise_cons.mpr ⟨fun next isNext => ?_, pairwise⟩, fun other member => ?_⟩
      · obtain ⟨first', isFirst', -, -, begins', -⟩ := others next isNext
        rw [ends, begins']
        exact between last isLast first' isFirst'
      · rcases List.mem_cons.mp member with rfl | later
        · exact ⟨first, by simp [isFirst], last, by simp [isLast], begins, ends, least last isLast⟩
        · obtain ⟨first', isFirst', last', isLast', bounds⟩ := others other later
          exact ⟨first', by simp [isFirst'], last', by simp [isLast'], bounds⟩

/-- The extents of the children of a node lie within its own. -/
theorem Derives.nest (derived : node.Derives tokens) (apart : Token.Apart tokens)
    (closings : ∀ token ∈ tokens, token.kind ∈ TokenKind.closings → token.last = token.position) :
    Nest node.first node.last node.children := by
  obtain ⟨pairwise, bounds⟩ := derived.spread.apart apart closings
  cases jump : node.isJump with
  | true =>
      rw [children_of_isJump jump]
      exact ⟨by simp, by simp, by simp, List.Pairwise.nil⟩
  | false =>
      obtain ⟨first, -, last, -, begins, ends, least, greatest⟩ :=
        derived.exists_ends apart closings
      refine ⟨fun child member => ?_, fun child member => ?_, fun child member => ?_, pairwise⟩ <;>
        obtain ⟨first', isFirst', last', isLast', begins', ends', ordered⟩ := bounds child member
      · rw [begins, begins']
        exact least first' isFirst'
      · have within := last'.offset_le_last
        rw [begins', ends']
        omega
      · rw [ends, ends']
        exact greatest jump last' isLast'

end SyntaxNode

namespace SourceFile

variable {file : SourceFile} {tokens : List Token} {program : Program}

/-- The tokens of a file before its end lie apart in its text, each where its position says, and are
those of their classes. -/
theorem content_tokens (scanned : file.tokens = .ok tokens) :
    Token.Apart (Program.content tokens) ∧
      (∀ token ∈ Program.content tokens, token.Located file.name file.text ∧
        token.last.offset < file.text.length ∧ Lexeme.Class token.kind token.lexeme) ∧
      Program.ending tokens = .behind file.name file.text := by
  have tiled := ScanTarget.tiled ⟨file.name, file.origin⟩ file.text
  rw [show ScanTarget.tokens ⟨file.name, file.origin⟩ file.text = .ok tokens from scanned] at tiled
  obtain ⟨front, gap, words, split, -, tiles, rfl, located⟩ := tiled
  obtain ⟨apart, before⟩ := tiles.apart
  have plain : ∀ word ∈ words, (word.kind != .eof) = true := tiles.kind_ne_eof
  have content : Program.content (words ++ [⟨.eof, [], .behind file.name file.text⟩]) = words := by
    rw [Program.content, List.takeWhile_append_of_pos plain]
    simp
  have ending : Program.ending (words ++ [⟨.eof, [], .behind file.name file.text⟩]) =
      .behind file.name file.text := by
    have none_ : words.find? (fun token => token.kind == .eof) = none :=
      List.find?_eq_none.mpr fun word member => by simpa using plain word member
    simp [Program.ending, List.find?_append, none_]
  rw [content]
  refine ⟨apart, fun token member => ⟨located token (by simp [member]), ?_, ?_⟩, ending⟩
  · have within := before token member
    rw [split, List.length_append]
    omega
  · exact ScanTarget.class_of_mem _ scanned (by simp [member]) (by simpa using plain token member)

/-- **Extents nest.**  In the tree of every text, no node begins before or ends behind its parent,
no node ends before it begins, and each child of a node ends before the next one begins. -/
theorem spans_nest (read : file.parse = .ok (tokens, program)) :
    SyntaxNode.Nest program.first program.last program.children ∧
      ∀ node, program.Contains node → SyntaxNode.Nest node.first node.last node.children := by
  obtain ⟨scanned, parsed⟩ := ofTokens_of_parse read
  obtain ⟨apart, known, ending⟩ := content_tokens scanned
  have closings : ∀ token ∈ Program.content tokens, token.kind ∈ TokenKind.closings →
      token.last = token.position :=
    fun token member closing => Token.last_of_closing (known token member).2.2 closing
  have spread := SyntaxNode.spread_items (Program.derived_of_ofTokens parsed)
  obtain ⟨pairwise, bounds⟩ := spread.apart apart closings
  have ordered : ∀ child ∈ program.children, child.first.offset ≤ child.last.offset := by
    intro child member
    obtain ⟨first, -, last, -, begins, ends, inOrder⟩ := bounds child member
    have within := last.offset_le_last
    rw [begins, ends]
    omega
  constructor
  · refine ⟨fun child member => ?_, ordered, fun child member => ?_, pairwise⟩
    · -- The root begins with its first child.
      cases items : program.items with
      | nil => simp [Program.children, items] at member
      | cons item others =>
          have begins : program.first = item.node.first := by
            rw [Program.first, items]
            cases item <;> rfl
          have children : program.children = item.node :: others.map Item.node := by
            simp [Program.children, items]
          have least := ordered item.node (by simp [children])
          rw [children] at member
          rw [begins]
          rcases List.mem_cons.mp member with rfl | later
          · exact Int.le_refl _
          · change (program.children).Pairwise _ at pairwise
            rw [children] at pairwise
            have before := (List.pairwise_cons.mp pairwise).1 child later
            omega
    · obtain ⟨-, -, last, isLast, -, ends, -⟩ := bounds child member
      have within := (known last isLast).2.1
      have size : (Position.behind file.name file.text).offset = file.text.length := rfl
      rw [(Program.ofTokens_accepts file.origin tokens).2 program parsed |>.2.1, ending, ends, size]
      omega
  · intro node within
    obtain ⟨front, run, back, split, derived⟩ := Program.Contains.exists_run parsed within
    rw [split] at apart closings
    have apartRun := (List.pairwise_append.mp (List.pairwise_append.mp apart).1).2.1
    exact derived.nest apartRun fun token member => closings token (by simp [member])

/-- A function with a parameter, and a loop with a jump and a literal over two lines in it. -/
def spreadFile : SourceFile :=
  ⟨"test.tss",
    "func f(x: int) int \x7b return -x; \x7d\nwhile (f(1) < 2) \x7b \"a\\\nb\"; break; \x7d"⟩

theorem spans_nest_spread : ∃ tokens program, spreadFile.parse = .ok (tokens, program) ∧
    SyntaxNode.Nest program.first program.last program.children ∧
      ∀ node, program.Contains node → SyntaxNode.Nest node.first node.last node.children := by
  have check : spreadFile.parse.isOk = true := by
    simp only [spreadFile, Bytes.ofString_eq]
    decide +kernel
  cases read : spreadFile.parse with
  | error _ =>
      rw [read] at check
      cases check
  | ok result => exact ⟨result.1, result.2, rfl, spans_nest read⟩

/-- **Extents are those of the tokens, with two exceptions.**  Every node of the tree of a text is
derived from a run of its tokens.  It begins where the first token of the run does.  It ends at the
last byte of the last one unless it is a jump, which ends with its keyword, and it ends at the line
and the column of the last rune if moreover that token lies on one line. -/
theorem extents_exact_iff (read : file.parse = .ok (tokens, program)) {node : SyntaxNode}
    (within : program.Contains node) :
    (∃ front run back, Program.content tokens = front ++ run ++ back ∧ node.Derives run) ∧
      ∀ front run back, Program.content tokens = front ++ run ++ back → node.Derives run →
        ∃ first last, run.head? = some first ∧ run.getLast? = some last ∧
          node.first = .behind file.name (first.before file.text) ∧
          last.upTo file.text = last.before file.text ++ last.lexeme ∧
          (node.last.offset = (last.upTo file.text).length - 1 ↔ node.isJump = false) ∧
          (node.last = .ofLast file.name (last.upTo file.text) ↔
            node.isJump = false ∧ 0x0A ∉ last.lexeme) := by
  obtain ⟨scanned, parsed⟩ := ofTokens_of_parse read
  obtain ⟨apart, known, -⟩ := content_tokens scanned
  refine ⟨Program.Contains.exists_run parsed within, fun front run back split derived => ?_⟩
  have inRun : ∀ token ∈ run, token.Located file.name file.text ∧
      Lexeme.Class token.kind token.lexeme := by
    intro token member
    obtain ⟨located, -, isClass⟩ := known token (by simp [split, member])
    exact ⟨located, isClass⟩
  rw [split] at apart
  have apartRun := (List.pairwise_append.mp (List.pairwise_append.mp apart).1).2.1
  obtain ⟨first, others, isFirst, begins⟩ := derived.exists_first
  obtain ⟨earlier, last, isLast, ends, early⟩ := derived.exists_final apartRun
    fun token member => Token.last_of_closing (inRun token member).2
  obtain ⟨located, isClass⟩ := inRun last (by simp [isLast])
  have reach := located.upTo_eq
  have offset := Token.offset_last_eq isClass located.position
  have exact_ := Token.last_eq_ofLast_iff isClass located.position
  change last.last.offset = ((last.before file.text ++ last.lexeme).length : Int) - 1 at offset
  change last.last = .ofLast file.name (last.before file.text ++ last.lexeme) ↔ _ at exact_
  rw [← reach] at offset exact_
  refine ⟨first, last, by simp [isFirst], by simp [isLast], ?_, reach, ?_, ?_⟩
  · rw [begins]
    exact (inRun first (by simp [isFirst])).1.position
  · cases jump : node.isJump with
    | false => simp [ends jump, offset]
    | true =>
        have short := early jump
        simp only [Bool.true_eq_false, iff_false]
        omega
  · cases jump : node.isJump with
    | false => simp [ends jump, exact_]
    | true =>
        have short := early jump
        simp only [Bool.true_eq_false, false_and, iff_false]
        intro same
        rw [same] at short
        change ((last.upTo file.text).length : Int) - 1 < _ at short
        omega

/-- In the loop of `spreadFile` the jump ends before its semicolon. -/
theorem extents_exact_iff_spread : ∃ tokens program node, spreadFile.parse = .ok (tokens, program) ∧
    program.Contains node ∧ node.isJump = true ∧
      ∃ front run back last, Program.content tokens = front ++ run ++ back ∧ node.Derives run ∧
        run.getLast? = some last ∧ node.last.offset ≠ (last.upTo spreadFile.text).length - 1 := by
  have check : spreadFile.parse.toOption.any (fun result => result.2.children.any fun loop =>
      loop.children.any fun body => body.children.any SyntaxNode.isJump) = true := by
    simp only [spreadFile, Bytes.ofString_eq]
    decide +kernel
  cases read : spreadFile.parse with
  | error _ =>
      rw [read] at check
      cases check
  | ok result =>
      rw [read] at check
      obtain ⟨loop, isLoop, check⟩ := List.any_eq_true.mp check
      obtain ⟨body, isBody, check⟩ := List.any_eq_true.mp check
      obtain ⟨node, isNode, jump⟩ := List.any_eq_true.mp check
      have within : result.2.Contains node := .child (.child (.item isLoop) isBody) isNode
      obtain ⟨⟨front, run, back, split, derived⟩, exact_⟩ := extents_exact_iff read within
      obtain ⟨_, last, -, isLast, -, -, ends, -⟩ := exact_ front run back split derived
      refine ⟨result.1, result.2, node, rfl, within, jump, front, run, back, last, split, derived,
        isLast, fun same => ?_⟩
      exact absurd (ends.mp same) (by simp [jump])

end SourceFile

end ScriptCompiler
