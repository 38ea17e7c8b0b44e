import ScriptCompiler.Proofs.Compilation.Units
import ScriptCompiler.Proofs.Layout.Building
import ScriptCompiler.Proofs.Reordering.Rules
import ScriptCompiler.Proofs.Syntax.Parsed

/-!
# The order of functions

Functions may be declared in any order and anywhere between the statements at top level.  Lowering
succeeds for all orders or for none, and the modules differ in the order of their functions and in
the places of their string constants only (`build_reordered`).

Programs in different orders are at different positions.  Positions do not matter to lowering, so
they are wiped out first.
-/

namespace ScriptCompiler

section Written

variable {move : Move}

mutual

/-- An expression can be written at other positions, too. -/
theorem Expr.written_moved (expression : Expr) (written : expression.Written) :
    (expression.moved move).Written :=
  match expression with
  | .literal _ _ => written
  | .variable _ => trivial
  | .group _ inner _ => inner.written_moved written
  | .binary left _ right => ⟨left.written_moved written.1, right.written_moved written.2⟩
  | .logical left _ right => ⟨left.written_moved written.1, right.written_moved written.2⟩
  | .unary _ operand => operand.written_moved written
  | .assignment _ _ value => value.written_moved written
  | .call _ arguments _ => Expr.allWritten_moved arguments written

theorem Expr.allWritten_moved (expressions : List Expr) (written : Expr.AllWritten expressions) :
    Expr.AllWritten (Expr.movedAll move expressions) :=
  match expressions with
  | [] => trivial
  | first :: rest => ⟨first.written_moved written.1, Expr.allWritten_moved rest written.2⟩

end

theorem Expr.written_moved_of_mem {given : Option Expr}
    (written : ∀ expression ∈ given, expression.Written) :
    ∀ expression ∈ given.map (Expr.moved move), expression.Written := by
  intro expression member
  obtain ⟨original, there, rfl⟩ := Option.map_eq_some_iff.mp member
  exact original.written_moved (written original there)

theorem LoopStart.written_moved (start : LoopStart) (written : start.Written) :
    (start.moved move).Written := by
  cases start with
  | «variable» declaration => exact Expr.written_moved_of_mem written
  | expression statement => exact Expr.written_moved _ written

theorem LoopStart.written_moved_of_mem {start : Option LoopStart}
    (written : ∀ first ∈ start, first.Written) :
    ∀ first ∈ start.map (LoopStart.moved move), first.Written := by
  intro first member
  obtain ⟨original, there, rfl⟩ := Option.map_eq_some_iff.mp member
  exact original.written_moved (written original there)

theorem Stmt.isAlternative_moved (statement : Stmt) (isAlternative : statement.IsAlternative) :
    (statement.moved move).IsAlternative := by
  cases statement with
  | block | conditional =>
      unfold Stmt.moved
      trivial
  | _ => exact isAlternative.elim

mutual

/-- A statement can be written at other positions, too. -/
theorem Stmt.written_moved (statement : Stmt) (written : statement.Written) :
    (statement.moved move).Written :=
  match statement with
  | .expression statement => statement.expression.written_moved written
  | .variable _ => Expr.written_moved_of_mem written
  | .block _ body _ => Stmt.allWritten_moved body written
  | .conditional _ condition _ consequent _ none =>
      ⟨condition.written_moved written.1, Stmt.allWritten_moved consequent written.2⟩
  | .conditional _ condition _ consequent _ (some alternative) =>
      ⟨condition.written_moved written.1, Stmt.allWritten_moved consequent written.2.1,
        alternative.isAlternative_moved written.2.2.1, alternative.written_moved written.2.2.2⟩
  | .loop _ _ _ _ _ body _ =>
      ⟨LoopStart.written_moved_of_mem written.1,
        Expr.written_moved_of_mem written.2.1, Expr.written_moved_of_mem written.2.2.1,
        Stmt.allWritten_moved body written.2.2.2⟩
  | .return_ _ _ _ => Expr.written_moved_of_mem written
  | .break_ _ => trivial
  | .continue_ _ => trivial
  | .function _ => trivial

theorem Stmt.allWritten_moved (statements : List Stmt) (written : Stmt.AllWritten statements) :
    Stmt.AllWritten (Stmt.movedAll move statements) :=
  match statements with
  | [] => trivial
  | first :: rest => ⟨first.written_moved written.1, Stmt.allWritten_moved rest written.2⟩

end

/-- A program can be written at other positions, too. -/
theorem Program.Written.moved {program : Program} (written : program.Written) :
    (program.moved move).Written where
  statements := by
    rw [Program.statements_moved, ← Stmt.movedAll_eq]
    exact Stmt.allWritten_moved _ written.statements
  bodies := by
    intro declaration member
    rw [Program.functions_moved] at member
    obtain ⟨original, there, rfl⟩ := List.mem_map.mp member
    exact Stmt.allWritten_moved _ (written.bodies original there)

end Written

/-- The move that wipes out all positions. -/
def nowhere : Move := fun _ => {}

/-- Two modules with the same entry function, declarations, string constants and functions, in
whatever order.  Functions refer to string constants at their places, which differ. -/
structure IR.Module.Rearranged (module module' : IR.Module) : Prop where
  /-- They have the same entry function. -/
  entry_eq : module'.entry = module.entry
  /-- They have the same declarations. -/
  externals_iff : ∀ external, external ∈ module'.externals ↔ external ∈ module.externals
  /-- They have the same string constants. -/
  strings_perm : module.strings.Perm module'.strings
  /-- They have the same functions up to the places of string constants. -/
  functions_perm : ∃ place : Nat → Nat,
    (∀ index text, module.strings[index]? = some text → module'.strings[place index]? = some text) ∧
      (module.functions.map (IR.Function.relocated place)).Perm module'.functions

namespace Lowering

open IR Statics

variable {options : EntryOptions} {file file' : SourceFile} {program program' : Program}
  {built built' : Built}

section Wiped

/-- A program is lowered at all positions or at none. -/
theorem exists_built_moved_iff (move : Position → Position) :
    (∃ built, build options file (program.moved move) = .ok built) ↔
      ∃ built, build options file program = .ok built := by
  have moved := @build_moved move options file program
  cases run : build options file program with
  | ok built =>
      rw [run] at moved
      exact ⟨fun _ => ⟨built, rfl⟩, fun _ => ⟨_, moved⟩⟩
  | error diagnostic =>
      rw [run] at moved
      obtain ⟨other, refused, -⟩ := moved
      rw [refused]
      simp

/-- The module of a program is the same at all positions. -/
theorem build_moved_of_ok (move : Position → Position)
    (run : build options file program = .ok built) :
    build options file (program.moved move) = .ok (built.moved move) := by
  have moved := @build_moved move options file program
  rwa [run] at moved

end Wiped

section Modules

theorem build_assembles (written : program.Written) (run : build options file program = .ok built) :
    ∃ opened last, Assembles options file.stem program built.module opened last := by
  unfold build at run
  simp only [StateT.run, bind, Except.bind] at run
  split at run
  · cases run
  · rename_i outcome lowered
    obtain ⟨⟨entry, functions⟩, last⟩ := outcome
    cases run
    obtain ⟨opened, assembles⟩ :=
      lowerItems_assembles written (declaring_ofFile rfl) rfl rfl lowered
    exact ⟨opened, last, assembles⟩

variable (statements : program'.statements = program.statements)
  (functions : program.functions.Perm program'.functions)
include statements functions

theorem pieces_perm (stem : Bytes) :
    (pieces options stem program).Perm (pieces options stem program') := by
  rw [pieces, pieces, functions.any_eq, statements]
  split
  · exact functions.map _
  · exact (functions.map _).cons _

/-- Two modules assembled from the same pieces are the same up to the order. -/
theorem Assembles.rearranged {stem : Bytes} {module module' : Module}
    {start last start' last' : State} (assembles : Assembles options stem program module start last)
    (assembles' : Assembles options stem program' module' start' last') :
    module.Rearranged module' := by
  have pieces : (pieces options stem program).Perm (pieces options stem program') :=
    pieces_perm statements functions stem
  have heads : (program.functions.map headOf).map (fun item => item.declaration.name.name) =
      program.functions.map fun declaration => declaration.name.name := by
    rw [List.map_map]
    rfl
  have same : signatures (program'.functions.map headOf) =
    signatures (program.functions.map headOf) := by
    funext name
    rw [signatures, signatures,
      find?_name_of_perm (functions.map headOf) (heads ▸ assembles.distinct)]
  have all := assembles.lowered
  have all' := assembles'.lowered
  rw [same] at all'
  have nodup : module.strings.Nodup := by
    rw [assembles.strings_eq]
    exact all.strings_enlarge.nodup (by simp [assembles.strings_nil])
  have nodup' : module'.strings.Nodup := by
    rw [assembles'.strings_eq]
    exact all'.strings_enlarge.nodup (by simp [assembles'.strings_nil])
  have strings : ∀ text, text ∈ module.strings ↔ text ∈ module'.strings := by
    intro text
    rw [assembles.strings_eq, assembles'.strings_eq]
    exact ⟨all.strings_subset all' pieces.subset assembles.strings_nil text,
      all'.strings_subset all pieces.symm.subset assembles'.strings_nil text⟩
  refine ⟨?_, fun external => ?_, (List.perm_ext_iff_of_nodup nodup nodup').mpr strings,
    newPlace module.strings module'.strings, fun index text there => ?_, ?_⟩
  · rw [assembles.entry_eq, assembles'.entry_eq, entryOf, entryOf, functions.any_eq]
  · rw [assembles.externals_eq, assembles'.externals_eq]
    exact ⟨all'.externals_mem all pieces.symm.subset assembles'.externals_nil external,
      all.externals_mem all' pieces.subset assembles.externals_nil external⟩
  · have member := (strings text).mp (List.mem_of_getElem? there)
    rw [newPlace, there, List.getElem?_eq_getElem (List.idxOf_lt_length_of_mem member),
      List.getElem_idxOf]
  · rw [assembles.strings_eq, assembles'.strings_eq]
    exact all.functions_perm all' pieces

end Modules

/-- **The order of function declarations does not matter.**  Let two programs have the same
statements at top level in the same order and the same functions in whatever order, interleaved in
whatever way.  Under the same options and in files with the same stem, one of them is lowered
exactly if the other one is, and the modules have the same entry function, declarations, string
constants and functions; only the order of functions and the places of string constants differ. -/
theorem build_reordered {origin origin' : Origin} {tokens tokens' : List Token}
    (parsed : Program.ofTokens origin tokens = .ok program)
    (parsed' : Program.ofTokens origin' tokens' = .ok program')
    (stems : file'.stem = file.stem)
    (statements : program'.statements.map (Stmt.moved nowhere) =
      program.statements.map (Stmt.moved nowhere))
    (functions : (program.functions.map (FunctionDecl.moved nowhere)).Perm
      (program'.functions.map (FunctionDecl.moved nowhere))) :
    ((∃ built, build options file program = .ok built) ↔
        ∃ built, build options file' program' = .ok built) ∧
      ∀ built built', build options file program = .ok built →
        build options file' program' = .ok built' → built.module.Rearranged built'.module := by
  rw [← Program.statements_moved, ← Program.statements_moved] at statements
  rw [← Program.functions_moved, ← Program.functions_moved] at functions
  have lowered : ∀ (file : SourceFile) (program : Program),
      (∃ built, build options file program = .ok built) ↔
        WellFormed options file.stem (program.moved nowhere) :=
    fun file program => (exists_built_moved_iff nowhere).symm.trans
      (exists_built_iff.trans (lowerItems_ok_iff (sees_ofFile rfl)))
  constructor
  · rw [lowered, lowered, stems]
    exact ⟨fun wellFormed => wellFormed.reorder statements functions,
      fun wellFormed => wellFormed.reorder statements.symm functions.symm⟩
  · intro built built' run run'
    obtain ⟨_, _, assembles⟩ := build_assembles (Program.written_of_ofTokens parsed).moved
      (build_moved_of_ok nowhere run)
    obtain ⟨_, _, assembles'⟩ := build_assembles (Program.written_of_ofTokens parsed').moved
      (build_moved_of_ok nowhere run')
    rw [stems] at assembles'
    exact assembles.rearranged statements functions assembles'

section Tellers

/-- A token at no position. -/
def tokenOf (kind : TokenKind) (lexeme : Bytes) : Token := ⟨kind, lexeme, {}⟩

/-- The tokens of a call as a statement. -/
def commandTokens (name : Bytes) (argument : List Token) : List Token :=
  [tokenOf .identifier name, tokenOf .leftParen "("] ++ argument ++
    [tokenOf .rightParen ")", tokenOf .semicolon ";"]

/-- A call as a statement. -/
def commandStmt (name : Bytes) (arguments : List Expr) : Stmt :=
  .expression ⟨.call ⟨tokenOf .identifier name⟩ arguments (tokenOf .rightParen ")"),
    tokenOf .semicolon ";"⟩

/-- The tokens of a function that prints a text, which is given with its quotes. -/
def tellerTokens (name text : Bytes) : List Token :=
  [tokenOf .funcKeyword "func", tokenOf .identifier name, tokenOf .leftParen "(",
    tokenOf .rightParen ")",
    tokenOf .leftBrace "\x7b"] ++ commandTokens printName [tokenOf .string text] ++
    [tokenOf .rightBrace "\x7d"]

/-- A function that prints a text. -/
def teller (name text : Bytes) : FunctionDecl where
  first := {}
  name := ⟨tokenOf .identifier name⟩
  params := []
  result := none
  opening := tokenOf .leftBrace "\x7b"
  body := [commandStmt printName [.literal (tokenOf .string text) (.string (unquote text))]]
  closing := tokenOf .rightBrace "\x7d"

/-- The tokens of a program with two such functions, one before and one behind a call. -/
def tellersTokens : List Token :=
  tellerTokens "f" "\"one\"" ++ commandTokens "f" [] ++ tellerTokens "g" "\"two\"" ++
    [tokenOf .eof []]

/-- The tokens of the program with its functions in the other order before the call. -/
def swappedTokens : List Token :=
  tellerTokens "g" "\"two\"" ++ tellerTokens "f" "\"one\"" ++ commandTokens "f" [] ++
    [tokenOf .eof []]

/-- The program with its functions around the call. -/
def tellers : Program where
  file := "a"
  items := [.function (teller "f" "\"one\""), .statement (commandStmt "f" []),
    .function (teller "g" "\"two\"")]
  last := {}

/-- The program with its functions before the call. -/
def swapped : Program where
  file := "a"
  items := [.function (teller "g" "\"two\""), .function (teller "f" "\"one\""),
    .statement (commandStmt "f" [])]
  last := {}

theorem tellers_parsed : Program.ofTokens ⟨"a", []⟩ tellersTokens = .ok tellers := rfl

theorem swapped_parsed : Program.ofTokens ⟨"a", []⟩ swappedTokens = .ok swapped := rfl

theorem tellers_functions : tellers.functions.Perm swapped.functions :=
  .swap (teller "g" "\"two\"") (teller "f" "\"one\"") []

theorem tellers_statements : tellers.statements = [commandStmt "f" []] := rfl

theorem swapped_statements : swapped.statements = [commandStmt "f" []] := rfl

/-- Both programs are lowered, and their string constants are in different orders. -/
theorem build_reordered_tellers : ∃ built built',
    build {} ⟨"a.tss", []⟩ tellers = .ok built ∧ build {} ⟨"a.tss", []⟩ swapped = .ok built' ∧
      built.module.strings ≠ built'.module.strings ∧ built.module.Rearranged built'.module := by
  obtain ⟨built, run, check⟩ := exists_ok_of_any
    (show ((build {} ⟨"a.tss", []⟩ tellers).toOption.any fun built =>
      (build {} ⟨"a.tss", []⟩ swapped).toOption.any fun built' =>
        built.module.strings != built'.module.strings) = true by decide +kernel)
  obtain ⟨built', run', differ⟩ := exists_ok_of_any check
  obtain ⟨-, alike⟩ := @build_reordered {} ⟨"a.tss", []⟩ ⟨"a.tss", []⟩ _ _ _ _ _ _ tellers_parsed
    swapped_parsed rfl (by rw [tellers_statements, swapped_statements]) (tellers_functions.map _)
  exact ⟨built, built', run, run', by simpa using differ, alike built built' run run'⟩

end Tellers

end Lowering

end ScriptCompiler
