import Mathlib.Data.List.TakeWhile
import ScriptCompiler.Proofs.Syntax.Leaves
import ScriptCompiler.Proofs.Syntax.RecognitionStatements

/-!
# Which tokens are programs

The parser of programs accepts the language of the grammar and returns the one tree of a derivation,
which is laid out as the tokens were and keeps to the levels of its operators
(`Program.ofTokens_accepts`).  A failure is marked incomplete exactly if the tokens are the
beginning of a program (`Program.incomplete_iff_continued`).
-/

open ScriptCompiler.Grammar ScriptCompiler.Parser

namespace ScriptCompiler

namespace Parser

theorem itemsWithin_stops {count : Nat} {tokens rest : List Token} {contents : List Item}
    (run : itemsWithin count tokens = .ok (contents, rest)) : upcoming rest = .eof := by
  induction count generalizing tokens contents with
  | zero => cases run
  | succ count ih =>
      rw [itemsWithin_succ, peek_bind] at run
      split at run
      · rename_i ends
        cases run
        exact eq_of_beq ends
      · obtain ⟨first, middle, _, later⟩ := bind_eq_ok.mp run
        obtain ⟨others, last, othersRun, ending⟩ := bind_eq_ok.mp later
        cases ending
        exact ih othersRun

theorem upcoming_eq_eof {tokens : List Token} (plain : Plain tokens)
    (ends : upcoming tokens = .eof) :
    tokens = [] := by
  cases tokens with
  | nil => rfl
  | cons token rest => exact absurd ends (plain token List.mem_cons_self)

/-- On tokens before the end of the input, the parser of programs accepts what the grammar
derives. -/
theorem items_eq_ok_iff {tokens rest : List Token} {contents : List Item} (plain : Plain tokens) :
    items tokens = .ok (contents, rest) ↔ AreItems false tokens contents ∧ rest = [] := by
  constructor
  · intro run
    obtain ⟨used, split, derived⟩ := (fits_items.at_ tokens).sound contents rest run
    have ends : rest = [] := by
      refine upcoming_eq_eof (fun token member => plain token ?_) (itemsWithin_stops run)
      rw [split]
      exact List.mem_append_right used member
    rw [ends, List.append_nil] at split
    exact ⟨split ▸ derived, ends⟩
  · rintro ⟨derived, rfl⟩
    exact items_reads derived

end Parser

namespace Program

variable {origin : Origin} {tokens : List Token}

theorem plain_content (tokens : List Token) : Plain (content tokens) := by
  intro token member
  simpa using List.mem_takeWhile_imp member

theorem content_of_plain (plain : Plain tokens) : content tokens = tokens :=
  List.takeWhile_eq_self_iff.mpr fun token member => by simpa using plain token member

theorem ofTokens_of_derived {contents : List Item}
    (derived : AreItems false (content tokens) contents) :
    ofTokens origin tokens = .ok ⟨origin.file, contents, ending tokens⟩ := by
  rw [ofTokens, items_reads derived]

theorem derived_of_ofTokens {program : Program} (run : ofTokens origin tokens = .ok program) :
    AreItems false (content tokens) program.items := by
  rw [ofTokens] at run
  split at run
  · rename_i contents rest read
    cases run
    exact ((items_eq_ok_iff (plain_content tokens)).mp read).1
  · cases run

/-- Tokens are a program exactly if the grammar derives those before the first end of the input.
The program is then that of the only derivation: its leaves are the tokens, colons aside, one for
one and in order, and its operands bind as tightly as the levels of their operators ask. -/
theorem ofTokens_accepts (origin : Origin) (tokens : List Token) :
    ((∃ program, ofTokens origin tokens = .ok program) ↔
        ∃ contents, AreItems false (content tokens) contents) ∧
      ∀ program, ofTokens origin tokens = .ok program →
        program.file = origin.file ∧ program.last = ending tokens ∧
        (∀ contents, AreItems false (content tokens) contents ↔ contents = program.items) ∧
        Leaf.Lay (program.items.flatMap Item.leaves) (content tokens) ∧
        (program.items.flatMap Item.leaves).map Leaf.kind =
          ((content tokens).map Token.kind).filter (fun kind => kind != .colon) ∧
        ∀ part ∈ program.items.flatMap Item.exprs, part.Ordered := by
  refine ⟨⟨?_, ?_⟩, ?_⟩
  · rintro ⟨program, run⟩
    exact ⟨program.items, derived_of_ofTokens run⟩
  · rintro ⟨contents, derived⟩
    exact ⟨_, ofTokens_of_derived derived⟩
  · intro program run
    have derived := derived_of_ofTokens run
    have only : ∀ contents, AreItems false (content tokens) contents ↔
      contents = program.items := by
      intro contents
      constructor
      · intro other
        rw [ofTokens_of_derived other] at run
        cases run
        rfl
      · rintro rfl
        exact derived
    have same := @ofTokens_of_derived origin tokens _ derived
    rw [run] at same
    injection same with same
    exact ⟨congrArg Program.file same, congrArg Program.last same, only, derived.lays,
      derived.lays.map_kind, derived.ordered⟩

/-- The tokens of a loop with clauses that leaves out its first clause, as in `for (;) {}`. -/
def shortLoop : List Token :=
  [⟨.forKeyword, [], {}⟩, ⟨.leftParen, [], {}⟩, ⟨.semicolon, [], {}⟩, ⟨.rightParen, [], {}⟩,
    ⟨.leftBrace, [], {}⟩, ⟨.rightBrace, [], {}⟩]

/-- The loose form of the grammar derives more than is accepted: a loop has to have a first
clause. -/
theorem ofTokens_refuses_shortLoop :
    (∃ contents, AreItems true (content shortLoop) contents) ∧
      ¬ ∃ program, ofTokens ⟨[], []⟩ shortLoop = .ok program := by
  constructor
  · have loop : IsStmt true false shortLoop _ :=
      .for_ rfl rfl (.omitted rfl) .none rfl .none rfl (.mk rfl .none rfl)
    exact ⟨_, .statement loop .none⟩
  · have fails : Parser.items (content shortLoop) =
        .error ⟨.expected "expression", some ⟨.rightParen, [], {}⟩⟩ := by rfl
    rintro ⟨program, run⟩
    rw [ofTokens, fails] at run
    cases run

/-! ### Continuation -/

/-- On tokens before the end of the input, a failure is marked incomplete exactly if there are
tokens to put behind them that make a program. -/
theorem incomplete_iff_continued (plain : Plain tokens) {diagnostic : Diagnostic}
    (run : ofTokens origin tokens = .error diagnostic) :
    diagnostic.incomplete = true ↔
      ∃ more, Plain more ∧ ∃ program, ofTokens origin (tokens ++ more) = .ok program := by
  have whole : ∀ more, Plain more → content (tokens ++ more) = tokens ++ more :=
    fun more others => content_of_plain (plain.append others)
  rw [ofTokens, content_of_plain plain] at run
  cases fails : Parser.items tokens with
  | ok outcome =>
      rw [fails] at run
      cases run
  | error error =>
      rw [fails] at run
      cases run
      constructor
      · intro open_
        obtain ⟨fault, token⟩ := error
        cases Option.isNone_iff_eq_none.mp open_
        have known := (settles_items tokens).uncut _ fails
        obtain ⟨more, contents, others, derived⟩ := (fits_items.at_ tokens).finish fault fails known
        refine ⟨more, others, _, ofTokens_of_derived (?_ : AreItems false _ contents)⟩
        rwa [whole more others]
      · rintro ⟨more, others, program, accepted⟩
        -- An error at a token would be raised on the longer input as well.
        by_contra settled
        have place : error.token ≠ none :=
          fun atEnd => settled (Option.isNone_iff_eq_none.mpr atEnd)
        have again : Parser.items (tokens ++ more) = .error error :=
          agrees_items.error error fails ((settles_items tokens).uncut error fails) (.inr place)
        rw [ofTokens, whole more others, again] at accepted
        cases accepted

/-- The beginning of a declaration, as in `var x`. -/
def openDeclaration : List Token := [⟨.varKeyword, [], {}⟩, ⟨.identifier, "x", {}⟩]

theorem openDeclaration_continued :
    ∃ diagnostic, ofTokens ⟨[], []⟩ openDeclaration = .error diagnostic ∧
      diagnostic.incomplete = true ∧ ∃ more, Plain more ∧
        ∃ program, ofTokens ⟨[], []⟩ (openDeclaration ++ more) = .ok program := by
  have plain : Plain openDeclaration := .cons (by decide) (.cons (by decide) .nil)
  have fails : Parser.items openDeclaration = .error ⟨.typeOrValueExpected "x", none⟩ := by rfl
  have run : ofTokens ⟨[], []⟩ openDeclaration =
      .error (diagnostic ⟨[], []⟩ openDeclaration ⟨.typeOrValueExpected "x", none⟩) := by
    rw [ofTokens, content_of_plain plain, fails]
  exact ⟨_, run, rfl, (incomplete_iff_continued plain run).mp rfl⟩

end Program

end ScriptCompiler
