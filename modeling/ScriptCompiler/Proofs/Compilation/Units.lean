import ScriptCompiler.Proofs.LLVM.Names

/-!
# Compilation units

What is known of a unit: its program was read from the file and lowered to a module that breaks no
rule, and its own module is what the optimizer made of that one and breaks none either
(`CompiledUnit.compile_ok`).  Where there is none, a diagnostic comes from reading the file or from
lowering its program (`CompiledUnit.compile_error`).
-/

namespace ScriptCompiler

open IR Lowering LLVM

theorem exists_ok_of_any {ε α : Type} {outcome : Except ε α} {test : α → Bool}
    (check : outcome.toOption.any test = true) :
    ∃ value, outcome = .ok value ∧ test value = true := by
  cases outcome with
  | error failure => cases check
  | ok value => exact ⟨value, rfl, check⟩

namespace Logged

variable {α β : Type}

/-- Work goes on with the log that earlier work left, or fails with it. -/
theorem run_bind (first : Logged α) (next : α → Logged β) (earlier : List LogRecord) :
    (first >>= next).run.run earlier = match first.run.run earlier with
      | (.ok middle, between) => (next middle).run.run between
      | (.error failure, between) => (.error failure, between) := by
  simp only [ExceptT.run_bind, StateT.run_bind]
  rcases first.run.run earlier with ⟨_ | _, _⟩ <;> rfl

theorem bind_ok {first : Logged α} {next : α → Logged β} {value : β} {earlier : List LogRecord}
    (run : ((first >>= next).run.run earlier).1 = .ok value) :
    ∃ middle between, (first.run.run earlier).1 = .ok middle ∧
      ((next middle).run.run between).1 = .ok value := by
  rw [run_bind] at run
  rcases results : first.run.run earlier with ⟨failure | middle, between⟩ <;> rw [results] at run
  · cases run
  · exact ⟨middle, between, rfl, run⟩

theorem bind_error {first : Logged α} {next : α → Logged β} {failure : Failure}
    {earlier : List LogRecord} (run : ((first >>= next).run.run earlier).1 = .error failure) :
    (first.run.run earlier).1 = .error failure ∨
      ∃ middle between, (first.run.run earlier).1 = .ok middle ∧
        ((next middle).run.run between).1 = .error failure := by
  rw [run_bind] at run
  rcases results : first.run.run earlier with ⟨found | middle, between⟩ <;> rw [results] at run
  · cases run
    exact .inl rfl
  · exact .inr ⟨middle, between, rfl, run⟩

theorem lift_ok {outcome : Except Diagnostic α} {value : α} {earlier : List LogRecord}
    (run : ((lift outcome).run.run earlier).1 = .ok value) : outcome = .ok value := by
  cases outcome with
  | error diagnostic => cases run
  | ok result =>
      cases run
      rfl

theorem lift_error {outcome : Except Diagnostic α} {failure : Failure} {earlier : List LogRecord}
    (run : ((lift outcome).run.run earlier).1 = .error failure) :
    ∃ diagnostic, outcome = .error diagnostic ∧ failure = .ofDiagnostic diagnostic := by
  cases outcome with
  | error diagnostic =>
      cases run
      exact ⟨diagnostic, rfl, rfl⟩
  | ok result => cases run

end Logged

namespace CompiledUnit

theorem verify_ok {moment : Bytes} {module : IR.Module} {earlier : List LogRecord}
    (run : ((verify moment module).run.run earlier).1 = .ok ()) : module.violations = [] := by
  unfold verify at run
  split at run
  · assumption
  · cases run

/-- A module that breaks a rule is no fault of the source. -/
theorem verify_error {moment : Bytes} {module : IR.Module} {failure : Failure}
    {earlier : List LogRecord}
    (run : ((verify moment module).run.run earlier).1 = .error failure) :
    failure.diagnostic = none := by
  unfold verify at run
  split at run <;> cases run
  rfl

/-- What stands behind a unit. -/
structure Compiled (options : CompilerOptions) (file : SourceFile) (unit : CompiledUnit)
    (built : Built) : Prop where
  /-- The unit is that of the file. -/
  file_eq : unit.file = file
  /-- Its program is read from the file. -/
  parsed : file.parse = .ok (unit.tokens, unit.program)
  /-- The program is lowered. -/
  lowered : build options.entry file unit.program = .ok built
  /-- The module that comes out breaks no rule. -/
  verified : built.module.violations = []
  /-- The module of the unit is the optimized one. -/
  module_eq : unit.module = ((optimizer options).optimize built.module).1

theorem compile_ok {options : CompilerOptions} {file : SourceFile} {unit : CompiledUnit}
    (compiled : (compile options file).outcome.1 = .ok unit) :
    ∃ built, Compiled options file unit built := by
  unfold compile Logged.outcome at compiled
  obtain ⟨⟨tokens, program⟩, _, parsed, compiled⟩ := Logged.bind_ok compiled
  obtain ⟨_, _, -, compiled⟩ := Logged.bind_ok compiled
  obtain ⟨built, _, lowered, compiled⟩ := Logged.bind_ok compiled
  obtain ⟨_, _, verified, compiled⟩ := Logged.bind_ok compiled
  obtain ⟨_, _, -, compiled⟩ := Logged.bind_ok compiled
  obtain ⟨_, _, -, compiled⟩ := Logged.bind_ok compiled
  dsimp only at compiled
  refine ⟨built, ?_⟩
  split at compiled
  · obtain ⟨_, _, failed, -⟩ := Logged.bind_ok compiled
    cases failed
  · obtain ⟨_, _, -, compiled⟩ := Logged.bind_ok compiled
    obtain ⟨_, _, -, compiled⟩ := Logged.bind_ok compiled
    cases compiled
    exact ⟨rfl, Logged.lift_ok parsed, Logged.lift_ok lowered, verify_ok verified, rfl⟩

/-- A diagnostic is one of reading the file or of lowering its program. -/
theorem compile_error {options : CompilerOptions} {file : SourceFile} {failure : Failure}
    {diagnostic : Diagnostic} (failed : (compile options file).outcome.1 = .error failure)
    (carries : failure.diagnostic = some diagnostic) :
    file.parse = .error diagnostic ∨ ∃ tokens program, file.parse = .ok (tokens, program) ∧
      build options.entry file program = .error diagnostic := by
  unfold compile Logged.outcome at failed
  rcases Logged.bind_error failed with failed | ⟨⟨tokens, program⟩, _, parsed, failed⟩
  · obtain ⟨found, refused, rfl⟩ := Logged.lift_error failed
    cases carries
    exact .inl refused
  refine .inr ⟨tokens, program, Logged.lift_ok parsed, ?_⟩
  rcases Logged.bind_error failed with ⟨⟨⟩⟩ | ⟨_, _, -, failed⟩
  rcases Logged.bind_error failed with failed | ⟨built, _, -, failed⟩
  · obtain ⟨found, refused, rfl⟩ := Logged.lift_error failed
    cases carries
    exact refused
  -- Behind the lowering a failure is only a text.
  exfalso
  have silent : failure.diagnostic ≠ none := by simp [carries]
  rcases Logged.bind_error failed with failed | ⟨_, _, -, failed⟩
  · exact silent (verify_error failed)
  rcases Logged.bind_error failed with ⟨⟨⟩⟩ | ⟨_, _, -, failed⟩
  rcases Logged.bind_error failed with ⟨⟨⟩⟩ | ⟨_, _, -, failed⟩
  dsimp only at failed
  split at failed
  · rcases Logged.bind_error failed with failed | ⟨_, _, failed, -⟩ <;> cases failed
    exact silent rfl
  · rcases Logged.bind_error failed with failed | ⟨_, _, -, failed⟩
    · exact silent (verify_error failed)
    · rcases Logged.bind_error failed with failed | ⟨_, _, -, failed⟩ <;> cases failed

end CompiledUnit

end ScriptCompiler
