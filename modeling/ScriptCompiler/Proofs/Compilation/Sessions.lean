import ScriptCompiler.Proofs.LLVM.Symbols
import ScriptCompiler.Session

/-!
# Sessions

A session is led by requests: entries are checked or added, and the session is reset.  The answers
tell which entries were accepted, and the session is never anything but these entries, compiled
together (`Session.serve_compiled`).
-/

namespace ScriptCompiler

/-- A text behind other ones is behind their join and a separator. -/
theorem Bytes.join_concat (separator last : Bytes) {parts : List Bytes} (some : parts ≠ []) :
    join separator (parts ++ [last]) = join separator parts ++ separator ++ last := by
  induction parts with
  | nil => exact absurd rfl some
  | cons part others ih =>
      cases others with
      | nil => simp [join, List.intercalate, List.intersperse]
      | cons next others =>
          have later := ih (List.cons_ne_nil next others)
          rw [List.cons_append] at later
          rw [List.cons_append, List.cons_append, join_cons_cons, join_cons_cons, later]
          simp only [List.append_assoc]

namespace Compiler

/-- Compiling a file depends on the workspace in nothing but the log. -/
theorem run_unit (compiler : Compiler) (file : SourceFile) (workspace : Workspace) :
    (compiler.unit file).run.run workspace =
      ((CompiledUnit.compile compiler.options file).outcome.1,
        workspace.log (CompiledUnit.compile compiler.options file).outcome.2) := by
  unfold unit
  simp only [ExceptT.run_bind, StateT.run_bind]
  cases (CompiledUnit.compile compiler.options file).outcome.1 <;> rfl

end Compiler

namespace Session

/-- What can be asked of a session. -/
inductive Request where
  /-- Whether an entry can be parsed after the accepted ones. -/
  | check (entry : Bytes)
  /-- To accept an entry if it compiles. -/
  | add (entry : Bytes)
  /-- To forget the entries. -/
  | reset

/-- What a session answers. -/
inductive Answer where
  /-- What keeps an entry from being parsed, if anything does. -/
  | checked (diagnostic : Option Diagnostic)
  /-- The unit of all entries, or what keeps the new one from being accepted. -/
  | added (result : Except Failure CompiledUnit)
  /-- The entries are forgotten. -/
  | done

/-- The answer to a request, and the session behind it.  A session is led by value: where adding an
entry fails there is no other session than the one before. -/
def respond (session : Session) : Request → StateM Workspace (Answer × Session)
  | .check entry => return (.checked (session.check entry), session)
  | .add entry => do
      match ← (session.add entry).run with
      | .ok (unit, later) => return (.added (.ok unit), later)
      | .error failure => return (.added (.error failure), session)
  | .reset => return (.done, session.reset)

/-- The answers to requests, one after the other, and the session behind them. -/
def serve (session : Session) : List Request → StateM Workspace (List (Request × Answer) × Session)
  | [] => return ([], session)
  | request :: rest => do
      let (answer, next) ← session.respond request
      let (answers, final) ← next.serve rest
      return ((request, answer) :: answers, final)

/-- The entries behind a request that was answered: none behind a reset, and one more where an entry
was added with success. -/
def keep (entries : List Bytes) : Request × Answer → List Bytes
  | (.reset, _) => []
  | (.add entry, .added (.ok _)) => entries ++ [entry]
  | _ => entries

/-- The entries that were added with success and not forgotten. -/
def kept (answers : List (Request × Answer)) : List Bytes := answers.foldl keep []

/-- The file that holds the accepted entries. -/
def sourceFile (session : Session) : SourceFile := .ofContents fileName session.source

/-- A session that is its entries, compiled. -/
structure Compiled (compiler : Compiler) (entries : List Bytes) (session : Session) : Prop where
  /-- The compiler is the one that the session began with. -/
  compiler_eq : session.compiler = compiler
  /-- The session holds the entries. -/
  entries_eq : session.entries = entries
  /-- Without entries there is no unit. -/
  none_of_nil : entries = [] → session.unit = none
  /-- With entries there is a unit, and in any workspace it is what comes of compiling them
  afresh. -/
  fresh : entries ≠ [] → ∃ unit, session.unit = some unit ∧ ∀ workspace : Workspace,
    ((compiler.unit session.sourceFile).run.run workspace).1 = .ok unit

/-- The two ways to put an entry behind the accepted ones come to the same text. -/
theorem followedBy_eq_join (session : Session) (entry : Bytes) :
    session.followedBy entry = Bytes.join "\n" (session.entries ++ [entry]) := by
  unfold followedBy
  split
  · rename_i empty
    have none : session.entries = [] := List.isEmpty_iff.mp empty
    simp [none, Bytes.join, List.intercalate]
  · rename_i some
    have some : session.entries ≠ [] := fun none => some (List.isEmpty_iff.mpr none)
    exact (Bytes.join_concat _ entry some).symm

/-- The file of an entry is the one that holds the source once the entry is accepted. -/
theorem file_eq (session : Session) (entry : Bytes) (unit : CompiledUnit) :
    session.file entry = (session.accept entry unit).sourceFile := by
  rw [file, followedBy_eq_join]
  rfl

/-- An entry is accepted exactly if the accepted ones and it compile together, and all that comes of
it otherwise is records in the log. -/
theorem run_add (session : Session) (entry : Bytes) (workspace : Workspace) :
    (session.add entry).run.run workspace =
      ((CompiledUnit.compile session.compiler.options (session.file entry)).outcome.1.map
          fun unit => (unit, session.accept entry unit),
        workspace.log
          (CompiledUnit.compile session.compiler.options (session.file entry)).outcome.2) := by
  unfold add
  simp only [ExceptT.run_bind, StateT.run_bind, Compiler.run_unit]
  cases (CompiledUnit.compile session.compiler.options (session.file entry)).outcome.1 <;> rfl

/-- What a request does to a session: a check and an entry that fails leave it as it is, a reset
leaves nothing, and an accepted entry stands behind the others in a session whose unit compiles them
all. -/
theorem respond_cases (session : Session) (request : Request) (workspace : Workspace) :
    let behind := ((session.respond request).run workspace).1
    (∃ entry, request = .check entry ∧ behind = (.checked (session.check entry), session)) ∨
    (request = .reset ∧ behind = (.done, session.reset)) ∨
    (∃ entry failure, request = .add entry ∧ behind = (.added (.error failure), session)) ∨
    ∃ entry unit, request = .add entry ∧
      behind = (.added (.ok unit), session.accept entry unit) ∧ ∀ workspace : Workspace,
        ((session.compiler.unit (session.file entry)).run.run workspace).1 = .ok unit := by
  cases request with
  | check entry => exact .inl ⟨entry, rfl, rfl⟩
  | reset => exact .inr (.inl ⟨rfl, rfl⟩)
  | add entry =>
      simp only [Compiler.run_unit, respond, StateT.run_bind, run_add]
      cases compiled :
        (CompiledUnit.compile session.compiler.options (session.file entry)).outcome.1 with
      | error failure => exact .inr (.inr (.inl ⟨entry, failure, rfl, rfl⟩))
      | ok unit => exact .inr (.inr (.inr ⟨entry, unit, rfl, rfl, fun _ => compiled⟩))

/-- One request leads from a compiled session to a compiled one. -/
theorem Compiled.respond {compiler : Compiler} {entries : List Bytes} {session : Session}
    (compiled : session.Compiled compiler entries) (request : Request) (workspace : Workspace) :
    ((session.respond request).run workspace).1.2.Compiled compiler
      (keep entries (request, ((session.respond request).run workspace).1.1)) := by
  rcases session.respond_cases request workspace with ⟨entry, rfl, behind⟩ | ⟨rfl, behind⟩ |
    ⟨entry, failure, rfl, behind⟩ | ⟨entry, unit, rfl, behind, fresh⟩ <;> rw [behind]
  · exact compiled
  · exact ⟨compiled.compiler_eq, rfl, fun _ => rfl, fun some => absurd rfl some⟩
  · exact compiled
  · refine ⟨compiled.compiler_eq, ?_, fun none => absurd none (by simp [keep]),
      fun _ => ⟨unit, rfl, ?_⟩⟩
    · simp [accept, keep, compiled.entries_eq]
    · rw [← session.file_eq entry unit, ← compiled.compiler_eq]
      exact fresh

/-- Requests lead from a compiled session to a compiled one. -/
theorem Compiled.serve {compiler : Compiler} {entries : List Bytes} {session : Session}
    (compiled : session.Compiled compiler entries) (requests : List Request)
    (workspace : Workspace) :
    ((session.serve requests).run workspace).1.2.Compiled compiler
      (((session.serve requests).run workspace).1.1.foldl keep entries) := by
  induction requests generalizing session entries workspace with
  | nil => exact compiled
  | cons request rest ih =>
      exact ih (compiled.respond request workspace) ((session.respond request).run workspace).2

/-- **A session is its accepted entries, compiled.**  Behind any requests to a new session its
source is the accepted entries line after line, and its unit is what compiling that source afresh
yields.  The file of a further entry holds the text that the source becomes if the entry is
accepted, and neither a check nor an entry that is not accepted changes the source or the unit. -/
theorem serve_compiled (compiler : Compiler) (requests : List Request) (workspace : Workspace) :
    let served := ((serve { compiler } requests).run workspace).1
    let session := served.2
    session.source = Bytes.join "\n" (kept served.1) ∧
    (kept served.1 = [] → session.unit = none) ∧
    (kept served.1 ≠ [] → ∃ unit, session.unit = some unit ∧ ∀ later : Workspace,
      ((compiler.unit (.ofContents fileName session.source)).run.run later).1 = .ok unit) ∧
    ∀ entry, session.file entry =
      .ofContents fileName (Bytes.join "\n" (kept served.1 ++ [entry])) ∧
      ∀ later : Workspace,
        ((session.respond (.check entry)).run later).1.2 = session ∧
        (∀ failure, ((session.respond (.add entry)).run later).1.1 = .added (.error failure) →
          ((session.respond (.add entry)).run later).1.2 = session) ∧
        ∀ unit, ((session.respond (.add entry)).run later).1.1 = .added (.ok unit) →
          ((session.respond (.add entry)).run later).1.2.source =
            Bytes.join "\n" (kept served.1 ++ [entry]) := by
  have start : Session.Compiled compiler [] { compiler } :=
    ⟨rfl, rfl, fun _ => rfl, fun some => absurd rfl some⟩
  have final := start.serve requests workspace
  dsimp only
  rw [← kept] at final
  generalize ((serve { compiler } requests).run workspace).1.2 = session at final ⊢
  refine ⟨by rw [source, final.entries_eq], final.none_of_nil, final.fresh, fun entry => ?_⟩
  rw [← final.entries_eq]
  refine ⟨by rw [file, followedBy_eq_join], fun later => ⟨rfl, ?_, ?_⟩⟩
  · intro failure failed
    rcases session.respond_cases (.add entry) later with ⟨_, ⟨⟩, _⟩ | ⟨⟨⟩, _⟩ |
      ⟨_, _, _, behind⟩ | ⟨_, _, _, behind, _⟩ <;> rw [behind] at failed ⊢
    cases failed
  · intro unit accepted
    rcases session.respond_cases (.add entry) later with ⟨_, ⟨⟩, _⟩ | ⟨⟨⟩, _⟩ |
      ⟨_, _, _, behind⟩ | ⟨_, _, ⟨⟩, behind, _⟩ <;> rw [behind] at accepted ⊢
    · cases accepted
    · rfl

/-- Two entries, one of which reads what the other declares, and between them one that is refused,
one that is only checked, and an empty one. -/
def mixedRequests : List Request :=
  [.add "var x = 1;", .add "y = x;", .check "if (", .add "", .add "print(x);"]

theorem serve_compiled_mixed :
    let compiler : Compiler := { options := {} }
    let workspace : Workspace := { files := ⟨[], []⟩ }
    let session := ((serve { compiler } mixedRequests).run workspace).1.2
    session.source = Bytes.ofString "var x = 1;\n\nprint(x);" ∧ ∃ unit, session.unit = some unit ∧
      ((compiler.unit (.ofContents fileName session.source)).run.run workspace).1 = .ok unit := by
  intro compiler workspace session
  have entries : kept ((serve { compiler } mixedRequests).run workspace).1.1 =
      [Bytes.ofString "var x = 1;", [], Bytes.ofString "print(x);"] := by decide +kernel
  obtain ⟨isSource, -, fresh, -⟩ := serve_compiled compiler mixedRequests workspace
  rw [entries] at isSource fresh
  obtain ⟨unit, isUnit, compiles⟩ := fresh (List.cons_ne_nil _ _)
  exact ⟨isSource.trans (by decide), unit, isUnit, compiles workspace⟩

end Session

end ScriptCompiler
