import ScriptCompiler.LLVM.Generate
import ScriptCompiler.Proofs.Layout.Standing

/-!
# Layout does not matter

Two texts whose tokens agree in kind and lexeme differ in blanks, comments and positions only.  The
tokens of the second text are those of the first one at other positions, and the change of positions
keeps the order of the text.  So a file is compiled alike from both texts, to the same module with
the same unused variables, or it fails alike from both, at tokens of one index
(`CompiledUnit.compile_layout`).
-/

namespace ScriptCompiler

section Relocation

/-- The change of positions that takes each token to the token of the same index among others. -/
def relocation (tokens others : List Token) : Move := fun position =>
  (((tokens.zip others).find? fun pair => pair.1.position == position).map
    fun pair => pair.2.position).getD position

variable {tokens others : List Token}

theorem Token.InOrder.ne {token : Token} {rest : List Token} (inOrder : InOrder (token :: rest))
    {later : Token} (member : later ∈ rest) : token.position ≠ later.position := by
  intro same
  have earlier := (List.pairwise_cons.mp inOrder).1 later member
  rw [same] at earlier
  exact lt_irrefl _ earlier

theorem relocation_cons_of_ne {token other : Token} {position : Position}
    (differ : token.position ≠ position) :
    relocation (token :: tokens) (other :: others) position =
      relocation tokens others position := by
  simp [relocation, differ]

theorem relocation_getElem (inOrder : Token.InOrder tokens) {index : Nat} {token other : Token}
    (isToken : tokens[index]? = some token) (isOther : others[index]? = some other) :
    relocation tokens others token.position = other.position := by
  induction tokens generalizing others index with
  | nil => simp at isToken
  | cons first rest ih =>
      cases others with
      | nil => simp at isOther
      | cons first' rest' =>
          cases index with
          | zero =>
              cases isToken
              cases isOther
              simp [relocation]
          | succ index =>
              simp only [List.getElem?_cons_succ] at isToken isOther
              rw [relocation_cons_of_ne (inOrder.ne (List.mem_of_getElem? isToken))]
              exact ih (List.pairwise_cons.mp inOrder).2 isToken isOther

/-- Among tokens of the same shapes there is one of the same index and shape. -/
theorem exists_getElem?_of_shapes (alike : others.map Token.shape = tokens.map Token.shape)
    {index : Nat} {token : Token} (isToken : tokens[index]? = some token) :
    ∃ other, others[index]? = some other ∧ other.shape = token.shape := by
  have same := congrArg (fun shapes => shapes[index]?) alike
  simp only [List.getElem?_map, isToken, Option.map_some] at same
  exact Option.map_eq_some_iff.mp same

/-- The tokens of one text are those of another one of the same shape, moved. -/
theorem map_moved_relocation (inOrder : Token.InOrder tokens)
    (alike : others.map Token.shape = tokens.map Token.shape) :
    tokens.map (Token.moved (relocation tokens others)) = others := by
  refine List.ext_getElem? fun index => ?_
  rw [List.getElem?_map]
  cases isToken : tokens[index]? with
  | none =>
      have same := congrArg (fun shapes => shapes[index]?) alike
      simp only [List.getElem?_map, isToken, Option.map_none] at same
      rw [Option.map_none, Option.map_eq_none_iff.mp same]
  | some token =>
      obtain ⟨other, isOther, shape⟩ := exists_getElem?_of_shapes alike isToken
      obtain ⟨kind, lexeme⟩ := Prod.mk.inj shape
      rw [Option.map_some, isOther, Token.moved, relocation_getElem inOrder isToken isOther, ← kind,
        ← lexeme]

/-- Where tokens begin one after the other, the order of their positions is that of their
indexes. -/
theorem Token.InOrder.offset_lt_iff (inOrder : Token.InOrder tokens) {index place : Nat}
    {token later : Token} (isToken : tokens[index]? = some token)
    (isLater : tokens[place]? = some later) :
    token.position.offset < later.position.offset ↔ index < place := by
  obtain ⟨below, rfl⟩ := List.getElem?_eq_some_iff.mp isToken
  obtain ⟨below', rfl⟩ := List.getElem?_eq_some_iff.mp isLater
  have rises := List.pairwise_iff_getElem.mp inOrder
  rcases Nat.lt_trichotomy index place with before | rfl | behind
  · exact iff_of_true (rises index place below below' before) before
  · exact iff_of_false (lt_irrefl _) (lt_irrefl _)
  · exact iff_of_false (lt_asymm (rises place index below' below behind)) (lt_asymm behind)

/-- The change of positions keeps the order of tokens. -/
theorem before_relocation (inOrder : Token.InOrder tokens) (inOrder' : Token.InOrder others)
    (alike : others.map Token.shape = tokens.map Token.shape) {token later : Token}
    (member : token ∈ tokens) (member' : later ∈ tokens) :
    (relocation tokens others token.position).before (relocation tokens others later.position) =
      token.position.before later.position := by
  obtain ⟨index, isToken⟩ := List.mem_iff_getElem?.mp member
  obtain ⟨place, isLater⟩ := List.mem_iff_getElem?.mp member'
  obtain ⟨token', isToken', -⟩ := exists_getElem?_of_shapes alike isToken
  obtain ⟨later', isLater', -⟩ := exists_getElem?_of_shapes alike isLater
  rw [relocation_getElem inOrder isToken isToken', relocation_getElem inOrder isLater isLater',
    Bool.eq_iff_iff]
  simp only [Position.before, decide_eq_true_eq]
  rw [inOrder'.offset_lt_iff isToken' isLater', inOrder.offset_lt_iff isToken isLater]

end Relocation

section Unused

variable {move : Move}

/-- Where the order of declarations is kept, the same variables are unused in the same order. -/
theorem ScopeTable.unused_moved {table : ScopeTable}
    (kept : ∀ record ∈ table.records, ∀ symbol ∈ record.symbols, ∀ other ∈ record.symbols,
      (move symbol.position).before (move other.position) = symbol.position.before other.position) :
    (table.moved move).unused = table.unused.map (Symbol.moved move) := by
  have single : ∀ record ∈ table.records,
      (record.moved move).unused = record.unused.map (Symbol.moved move) := by
    intro record member
    simp only [ScopeRecord.unused, ScopeRecord.moved, List.filter_map]
    refine (List.map_mergeSort fun left inLeft right inRight => ?_).symm
    have same := kept record member right (List.mem_of_mem_filter inRight) left
      (List.mem_of_mem_filter inLeft)
    exact congrArg not same.symm
  simp only [unused, moved, List.flatMap_map, List.map_flatMap]
  exact List.flatMap_congr single

/-- A scope table that a change of positions leaves as it is has fixed positions. -/
theorem ScopeTable.fixed_of_moved {table : ScopeTable} (same : table.moved move = table)
    {record : ScopeRecord} (member : record ∈ table.records) {symbol : Symbol}
    (within : symbol ∈ record.symbols) : move symbol.position = symbol.position := by
  have records : table.records.map (ScopeRecord.moved move) = table.records.map id :=
    (congrArg ScopeTable.records same).trans (List.map_id _).symm
  have symbols : record.symbols.map (Symbol.moved move) = record.symbols.map id :=
    (congrArg ScopeRecord.symbols (List.map_inj_left.mp records record member)).trans
      (List.map_id _).symm
  exact congrArg Symbol.position (List.map_inj_left.mp symbols symbol within)

end Unused

namespace Logged

variable {α β α' β' : Type} {values : α → α' → Prop} {others : β → β' → Prop}
  {failures : Failure → Failure → Prop}

/-- Two outcomes with related values or related failures. -/
inductive Pairs (values : α → α' → Prop) (failures : Failure → Failure → Prop) :
    Except Failure α → Except Failure α' → Prop where
  /-- Both come to a value. -/
  | ok {value : α} {value' : α'} (related : values value value') :
      Pairs values failures (.ok value) (.ok value')
  /-- Both fail. -/
  | error {failure failure' : Failure} (related : failures failure failure') :
      Pairs values failures (.error failure) (.error failure')

theorem Pairs.exists_of_ok {outcome : Except Failure α} {outcome' : Except Failure α'}
    (pairs : Pairs values failures outcome outcome') {value : α} (isValue : outcome = .ok value) :
    ∃ value', outcome' = .ok value' ∧ values value value' := by
  cases pairs with
  | ok related =>
      cases isValue
      exact ⟨_, rfl, related⟩
  | error related => cases isValue

/-- Two pieces of work with related outcomes, whatever has been logged before. -/
def Tracks (values : α → α' → Prop) (failures : Failure → Failure → Prop) (first : Logged α)
    (second : Logged α') : Prop :=
  ∀ earlier earlier', Pairs values failures (first.run.run earlier).1 (second.run.run earlier').1

namespace Tracks

theorem pure {value : α} {value' : α'} (related : values value value') :
    Tracks values failures (Pure.pure value) (Pure.pure value') :=
  fun _ _ => .ok related

theorem throw {failure failure' : Failure} (related : failures failure failure') :
    Tracks values failures (MonadExcept.throw failure) (MonadExcept.throw failure') :=
  fun _ _ => .error related

theorem note (records records' : List LogRecord) :
    Tracks (fun _ _ => True) failures (Logged.note records) (Logged.note records') :=
  fun _ _ => .ok trivial

theorem bind {first : Logged α} {second : Logged α'} {next : α → Logged β} {later : α' → Logged β'}
    (tracks : Tracks values failures first second)
    (goesOn : ∀ value value', values value value' →
      Tracks others failures (next value) (later value')) :
    Tracks others failures (first >>= next) (second >>= later) := by
  intro earlier earlier'
  have both := tracks earlier earlier'
  simp only [ExceptT.run_bind, StateT.run_bind]
  generalize first.run.run earlier = left at both
  generalize second.run.run earlier' = right at both
  obtain ⟨left, between⟩ := left
  obtain ⟨right, between'⟩ := right
  cases both with
  | ok related => exact goesOn _ _ related between between'
  | error related => exact .error related

theorem lift {outcome : Except Diagnostic α} {outcome' : Except Diagnostic α'}
    (related : match outcome, outcome' with
      | .ok value, .ok value' => values value value'
      | .error diagnostic, .error diagnostic' =>
          failures (.ofDiagnostic diagnostic) (.ofDiagnostic diagnostic')
      | _, _ => False) :
    Tracks values failures (Logged.lift outcome) (Logged.lift outcome') := by
  cases outcome <;> cases outcome'
  · exact throw related
  · exact related.elim
  · exact related.elim
  · exact pure related

end Tracks

end Logged

namespace CompiledUnit

open IR Lowering

/-- Two failures for one reason: two diagnostics of one category at tokens of one index, or one
text. -/
inductive FailAlike (tokens others : List Token) : Failure → Failure → Prop where
  /-- Two diagnostics about one thing, each at the token of the same index. -/
  | reported {diagnostic diagnostic' : Diagnostic} {index : Nat} {token other : Token}
      (category : diagnostic'.category = diagnostic.category)
      (incomplete : diagnostic'.incomplete = diagnostic.incomplete)
      (isToken : tokens[index]? = some token) (isOther : others[index]? = some other)
      (position : diagnostic.position = token.position)
      (position' : diagnostic'.position = other.position) :
      FailAlike tokens others (.ofDiagnostic diagnostic) (.ofDiagnostic diagnostic')
  /-- A failure without a diagnostic. -/
  | plain (message : Bytes) : FailAlike tokens others (.plain message) (.plain message)

/-- Two units with one module, one code and the same unused variables. -/
structure SameResult (unit other : CompiledUnit) : Prop where
  /-- The modules have one text. -/
  module_text : other.module.text = unit.module.text
  /-- The same variables are unused, in the same order. -/
  unused_names : other.unused.map Symbol.name = unit.unused.map Symbol.name
  /-- The modules have the same code, or generating it stops for the same reason. -/
  code : ∀ options : LLVM.Options, (LLVM.generate options other.module).map LLVM.Module.text =
    (LLVM.generate options unit.module).map LLVM.Module.text

section Stages

variable {tokens others : List Token} (inOrder : Token.InOrder tokens)
  (alike : others.map Token.shape = tokens.map Token.shape)
include inOrder alike

/-- A diagnostic at a token and one at its new position fail alike. -/
theorem failAlike_of_token {diagnostic other : Diagnostic}
    (category : other.category = diagnostic.category)
    (incomplete : other.incomplete = diagnostic.incomplete)
    (moved : other.position = relocation tokens others diagnostic.position)
    (blamed : ∃ token ∈ tokens, token.position = diagnostic.position) :
    FailAlike tokens others (.ofDiagnostic diagnostic) (.ofDiagnostic other) := by
  obtain ⟨token, member, same⟩ := blamed
  obtain ⟨index, isToken⟩ := List.mem_iff_getElem?.mp member
  obtain ⟨other, isOther, -⟩ := exists_getElem?_of_shapes alike isToken
  refine .reported category incomplete isToken isOther same.symm ?_
  rw [moved, ← same]
  exact relocation_getElem inOrder isToken isOther

end Stages

/-- The same module is verified alike. -/
theorem verify_tracks {failures : Failure → Failure → Prop}
    (plain : ∀ message, failures (.plain message) (.plain message)) (moment : Bytes)
    (module : IR.Module) :
    Logged.Tracks (fun _ _ => True) failures (verify moment module) (verify moment module) := by
  unfold verify
  split
  · exact .pure trivial
  · exact .throw (plain _)

/-- Two programs read from tokens of one shape: the second one is the first one at other positions,
and the positions of the first one are those of its tokens. -/
structure ReadAlike (file : SourceFile) (tokens others : List Token)
    (result result' : List Token × Program) : Prop where
  /-- The first program is read from the file. -/
  parsed : file.parse = .ok result
  /-- The second program is the first one, moved. -/
  moved : result'.2 = result.2.moved (relocation tokens others)
  /-- The first program stands where its tokens stand. -/
  fixed : result.2.moved (standing tokens) = result.2

/-- Two outcomes of lowering such programs. -/
structure BuiltAlike (tokens others : List Token) (built built' : Built) : Prop where
  /-- The second outcome is the first one, moved. -/
  moved : built' = built.moved (relocation tokens others)
  /-- The first outcome stands where the tokens stand. -/
  fixed : built.moved (standing tokens) = built

section Files

variable {name text text' : Bytes} {tokens others : List Token}
  (scanned : (SourceFile.mk name text).tokens = .ok tokens)
  (scanned' : (SourceFile.mk name text').tokens = .ok others)
  (alike : others.map Token.shape = tokens.map Token.shape)
include scanned scanned' alike

theorem parse_tracks :
    Logged.Tracks (ReadAlike ⟨name, text⟩ tokens others) (FailAlike tokens others)
      (Logged.lift (SourceFile.mk name text).parse)
        (Logged.lift (SourceFile.mk name text').parse) := by
  obtain ⟨inOrder, ends⟩ := SourceFile.tokens_inOrder scanned
  let origin := (SourceFile.mk name text).origin
  have parse : ∀ {text tokens}, (SourceFile.mk name text).tokens = .ok tokens →
      (SourceFile.mk name text).parse =
        (Program.ofTokens origin tokens).map fun program => (tokens, program) := by
    intro text tokens scanned
    rw [SourceFile.parse, scanned]
    rfl
  have moved := @Program.ofTokens_moved (relocation tokens others) tokens ends origin
  rw [map_moved_relocation inOrder alike] at moved
  have parsed := parse scanned
  rw [parse scanned, parse scanned', moved]
  refine .lift ?_
  cases read : Program.ofTokens origin tokens with
  | ok program =>
      rw [read] at parsed
      exact ⟨parsed, rfl, Program.moved_standing ends read⟩
  | error diagnostic =>
      exact failAlike_of_token inOrder alike rfl rfl rfl (Program.exists_token_of_refused ends read)

omit scanned' in
theorem build_tracks (options : EntryOptions) {result result' : List Token × Program}
    (read : ReadAlike ⟨name, text⟩ tokens others result result') :
    Logged.Tracks (BuiltAlike tokens others) (FailAlike tokens others)
      (Logged.lift (build options ⟨name, text⟩ result.2))
      (Logged.lift (build options ⟨name, text'⟩ result'.2)) := by
  obtain ⟨inOrder, -⟩ := SourceFile.tokens_inOrder scanned
  have moved := @build_moved (relocation tokens others) options ⟨name, text⟩ result.2
  have fixed := @build_moved (standing tokens) options ⟨name, text⟩ result.2
  -- The text of a file plays no part in lowering.
  have same : build options ⟨name, text'⟩ result'.2 = build options ⟨name, text⟩ result'.2 := rfl
  rw [same, read.moved]
  rw [read.fixed] at fixed
  refine .lift ?_
  cases lowered : build options ⟨name, text⟩ result.2 with
  | ok built =>
      rw [lowered] at moved fixed
      rw [moved]
      exact ⟨rfl, (Except.ok.inj fixed).symm⟩
  | error diagnostic =>
      rw [lowered] at moved
      obtain ⟨other, refused, atOther⟩ := moved
      rw [refused]
      obtain ⟨known, blamed⟩ := Lowering.exists_token_of_refused
        (SourceFile.regular_of_parse read.parsed) read.fixed lowered
      exact failAlike_of_token inOrder alike atOther.category_eq atOther.incomplete_eq
        (atOther.position_eq.resolve_left known) blamed

/-- The same variables are unused in the same order. -/
theorem unused_names_eq {built built' : Built} (lowered : BuiltAlike tokens others built built') :
    built'.unused.map Symbol.name = built.unused.map Symbol.name := by
  obtain ⟨inOrder, -⟩ := SourceFile.tokens_inOrder scanned
  obtain ⟨inOrder', -⟩ := SourceFile.tokens_inOrder scanned'
  have fixed : built.table.moved (standing tokens) = built.table :=
    congrArg Built.table lowered.fixed
  have kept : ∀ record ∈ built.table.records, ∀ symbol ∈ record.symbols,
      ∀ other ∈ record.symbols, (relocation tokens others symbol.position).before
        (relocation tokens others other.position) = symbol.position.before other.position := by
    intro record member symbol within other within'
    obtain ⟨token, isToken, same⟩ :=
      exists_of_standing (ScopeTable.fixed_of_moved fixed member within)
    obtain ⟨later, isLater, same'⟩ :=
      exists_of_standing (ScopeTable.fixed_of_moved fixed member within')
    rw [← same, ← same']
    exact before_relocation inOrder inOrder' alike isToken isLater
  rw [lowered.moved, Built.unused, Built.moved, ScopeTable.unused_moved kept, List.map_map]
  rfl

/-- **Layout never changes the result.**  If two texts of a file have tokens that agree in kind and
lexeme, then under all options the file is compiled from both, to modules with one text, one code
and the same unused variables in the same order, or it fails from both, with diagnostics of one
category at the tokens of one index or for the same reason without a diagnostic. -/
theorem compile_layout (options : CompilerOptions) :
    Logged.Pairs SameResult (FailAlike tokens others) (compile options ⟨name, text⟩).outcome.1
      (compile options ⟨name, text'⟩).outcome.1 := by
  have plain : ∀ message, FailAlike tokens others (.plain message) (.plain message) :=
    FailAlike.plain
  have tracks : Logged.Tracks SameResult (FailAlike tokens others) (compile options ⟨name, text⟩)
      (compile options ⟨name, text'⟩) := by
    refine (parse_tracks scanned scanned' alike).bind fun result result' read =>
      (Logged.Tracks.note _ _).bind fun _ _ _ =>
      (build_tracks scanned alike options.entry read).bind fun built built' lowered => ?_
    have names := unused_names_eq scanned scanned' alike lowered
    obtain ⟨rfl, -⟩ := lowered
    refine (verify_tracks plain _ built.module).bind fun _ _ _ =>
      (Logged.Tracks.note _ _).bind fun _ _ _ => (Logged.Tracks.note _ _).bind fun _ _ _ => ?_
    rw [show (built.moved (relocation tokens others)).module = built.module from rfl]
    dsimp only
    cases ((optimizer options).optimizeFunctions built.module.functions).failure with
    | some message => exact fun _ _ => .error (plain _)
    | none =>
        exact (verify_tracks plain _ _).bind fun _ _ _ => (Logged.Tracks.note _ _).bind fun _ _ _ =>
          .pure ⟨rfl, names, fun _ => rfl⟩
  exact tracks [] []

end Files

/-- The name of a file. -/
def sampleName : Bytes := "a.tss"

/-- A program on one line. -/
def denseText : Bytes := "print(1);"

/-- The same program with blanks, line ends and a comment. -/
def looseText : Bytes := "// one\n print ( /* two */\t1 ) ;"

/-- A file is compiled from both texts, and to the same result. -/
theorem compile_layout_loose : ∃ tokens others unit other,
    (SourceFile.mk sampleName denseText).tokens = .ok tokens ∧
      (SourceFile.mk sampleName looseText).tokens = .ok others ∧
      others.map Token.shape = tokens.map Token.shape ∧ others ≠ tokens ∧
      (compile {} ⟨sampleName, denseText⟩).outcome.1 = .ok unit ∧
      (compile {} ⟨sampleName, looseText⟩).outcome.1 = .ok other ∧ SameResult unit other := by
  obtain ⟨tokens, scanned, check⟩ := exists_ok_of_any
    (show ((SourceFile.mk sampleName denseText).tokens.toOption.any fun tokens =>
      (SourceFile.mk sampleName looseText).tokens.toOption.any fun others =>
        others.map Token.shape == tokens.map Token.shape && others != tokens) = true by
      simp only [denseText, looseText, Bytes.ofString_eq]
      decide +kernel)
  obtain ⟨others, scanned', check⟩ := exists_ok_of_any check
  simp only [Bool.and_eq_true, beq_iff_eq, bne_iff_ne] at check
  obtain ⟨unit, compiled, -⟩ := exists_ok_of_any
    (show ((compile {} ⟨sampleName, denseText⟩).outcome.1.toOption.any fun unit =>
      unit.module.functions.length == 1) = true by
      simp only [denseText, Bytes.ofString_eq]
      decide +kernel)
  obtain ⟨other, compiled', same⟩ :=
    (compile_layout scanned scanned' check.1 {}).exists_of_ok compiled
  exact ⟨tokens, others, unit, other, scanned, scanned', check.1, check.2, compiled,
    compiled', same⟩

end CompiledUnit

end ScriptCompiler
