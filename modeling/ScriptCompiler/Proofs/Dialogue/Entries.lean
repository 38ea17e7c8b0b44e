import ScriptCompiler.Proofs.Compilation.Sessions
import ScriptCompiler.Proofs.Layout.Independence
import ScriptCompiler.Proofs.Token.Trailing

/-!
# Entries that end too early

Only the parser asks for more input, so that an entry which can be read after the accepted ones is
refused for other reasons alone (`Session.definite_of_refused`).  The empty entry can always be
read, since a newline behind the accepted ones changes nothing (`Session.Compiled.check_nil`).
-/

namespace ScriptCompiler

/-- Texts of one file with tokens of one shape are both read or both not. -/
theorem SourceFile.parse_of_shapes {name text text' : Bytes} {tokens others : List Token}
    {program : Program} (parsed : (SourceFile.mk name text).parse = .ok (tokens, program))
    (scanned : (SourceFile.mk name text').tokens = .ok others)
    (alike : others.map Token.shape = tokens.map Token.shape) :
    ∃ program', (SourceFile.mk name text').parse = .ok (others, program') := by
  obtain ⟨scanned', read⟩ := SourceFile.ofTokens_of_parse parsed
  obtain ⟨inOrder, ends⟩ := SourceFile.tokens_inOrder scanned'
  have moved := @Program.ofTokens_moved (relocation tokens others) tokens ends
    (SourceFile.mk name text').origin
  rw [map_moved_relocation inOrder alike] at moved
  have same : Program.ofTokens (SourceFile.mk name text').origin tokens = .ok program := read
  rw [same] at moved
  refine ⟨program.moved (relocation tokens others), ?_⟩
  simp only [parse, scanned, moved, bind, Except.bind]
  rfl

namespace Session

variable {session : Session}

/-- What can be read is parsed. -/
theorem check_eq_none {entry : Bytes} {result : List Token × Program}
    (parsed : (session.file entry).parse = .ok result) : session.check entry = none := by
  rw [check, parsed]

/-- Without an entry there is nothing that cannot be read: the accepted entries can be read, and so
they can with a newline behind them. -/
theorem Compiled.check_nil {compiler : Compiler} {entries : List Bytes}
    (compiled : session.Compiled compiler entries) : session.check [] = none := by
  cases held : entries with
  | nil =>
      have alone : session.file [] = .ofContents fileName [] := by
        rw [file, followedBy, compiled.entries_eq, held]
        rfl
      obtain ⟨result, parsed, -⟩ := exists_ok_of_any
        (show ((SourceFile.ofContents fileName []).parse.toOption.any fun _ => true) = true by
          decide +kernel)
      exact check_eq_none (alone ▸ parsed)
  | cons first others =>
      have some : entries ≠ [] := held ▸ List.cons_ne_nil first others
      have behind : session.followedBy [] = session.source ++ [0x0A] := by
        have filled : session.entries.isEmpty = false := by rw [compiled.entries_eq, held]; rfl
        rw [followedBy, filled]
        exact List.append_nil _
      obtain ⟨unit, -, fresh⟩ := compiled.fresh some
      have ok := fresh { files := ⟨[], []⟩ }
      rw [Compiler.run_unit] at ok
      obtain ⟨built, unitCompiled⟩ := CompiledUnit.compile_ok ok
      have parsed := unitCompiled.parsed
      obtain ⟨scanned, -⟩ := SourceFile.ofTokens_of_parse parsed
      obtain ⟨others, scanned', alike⟩ := ScanTarget.shapes_composed_newline _ scanned
      obtain ⟨program, parsed'⟩ := SourceFile.parse_of_shapes parsed scanned' alike
      rw [← behind] at parsed'
      exact check_eq_none parsed'

end Session

end ScriptCompiler
