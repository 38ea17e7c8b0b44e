import ScriptCompiler.Dialogue
import ScriptCompiler.Proofs.Dialogue.Entries

/-!
# Dialogues, chunk by chunk

A dialogue cuts the lines that it reads into chunks, each the shortest run of lines that can be
acted on, and acts on them one after the other (`Ledger.Leads`).  The lines collected so far serve
it also to tell a first line from a further one.  That is sound, since a line without any byte is a
chunk by itself.
-/

namespace ScriptCompiler

namespace Session

variable {session : Session} {lines : List Bytes}

/-- A text can be acted on: it is a command, or it can be read after the accepted entries, or it
cannot be for another reason than that it ends too early. -/
def Settles (session : Session) (text : Bytes) : Prop :=
  DialogueCommand.isCommand text = true ∨
    ∀ diagnostic, session.check text = some diagnostic → diagnostic.incomplete = false

/-- Lines none of whose beginnings can be acted on. -/
def Awaits (session : Session) (lines : List Bytes) : Prop :=
  ∀ shorter, shorter <+: lines → shorter ≠ [] → ¬session.Settles (Bytes.join "\n" shorter)

/-- The shortest run of lines that can be acted on. -/
structure Chunk (session : Session) (lines : List Bytes) : Prop where
  /-- There is a line. -/
  nonempty : lines ≠ []
  /-- The lines can be acted on. -/
  settles : session.Settles (Bytes.join "\n" lines)
  /-- No beginning of them can be. -/
  shortest : ∀ shorter, shorter <+: lines → shorter ≠ [] →
    session.Settles (Bytes.join "\n" shorter) → shorter = lines

theorem Awaits.nil : session.Awaits [] :=
  fun _ begins some => absurd (List.prefix_nil.mp begins) some

theorem Awaits.concat {line : Bytes} (awaits : session.Awaits lines)
    (unsettled : ¬session.Settles (Bytes.join "\n" (lines ++ [line]))) :
    session.Awaits (lines ++ [line]) := by
  intro shorter begins some
  rcases List.prefix_concat_iff.mp begins with rfl | begins
  · exact unsettled
  · exact awaits shorter begins some

theorem Awaits.chunk {line : Bytes} (awaits : session.Awaits lines)
    (settles : session.Settles (Bytes.join "\n" (lines ++ [line]))) :
    session.Chunk (lines ++ [line]) := by
  refine ⟨by simp, settles, fun shorter begins some acted => ?_⟩
  rcases List.prefix_concat_iff.mp begins with same | begins
  · exact same
  · exact absurd acted (awaits shorter begins some)

theorem Awaits.front {line : Bytes} (awaits : session.Awaits (lines ++ [line])) :
    session.Awaits lines :=
  fun shorter begins => awaits shorter (begins.trans (List.prefix_append _ _))

/-- A chunk is lines that await another one, and that one. -/
theorem Chunk.exists_concat (chunk : session.Chunk lines) :
    ∃ front last, lines = front ++ [last] ∧ session.Awaits front := by
  obtain ⟨front, last, rfl⟩ := (List.eq_nil_or_concat lines).resolve_left chunk.nonempty
  refine ⟨front, last, by simp, fun shorter begins some acted => ?_⟩
  rw [List.concat_eq_append] at chunk
  have whole := chunk.shortest shorter (begins.trans (List.prefix_append _ _)) some acted
  have short := begins.length_le
  rw [whole, List.length_append] at short
  simp at short

/-- Lines that await another one are no text without any byte. -/
theorem Awaits.isEmpty_join (awaits : session.Awaits lines) (nothing : session.check [] = none) :
    (Bytes.join "\n" lines).isEmpty = lines.isEmpty := by
  cases lines with
  | nil => rfl
  | cons first rest =>
      have some : first ≠ [] := by
        rintro rfl
        refine awaits [[]] (by simp) (by simp) (.inr fun diagnostic unread => ?_)
        have alone : Bytes.join "\n" [[]] = [] := rfl
        rw [alone, nothing] at unread
        cases unread
      cases rest with
      | nil => cases first <;> simp_all [Bytes.join, List.intercalate]
      | cons second others => cases first <;> simp_all [Bytes.join_cons_cons]

end Session

/-- The words that end a dialogue. -/
def DialogueCommand.quitWords : List Bytes := [":quit", ":q"]

theorem DialogueCommand.ofText_eq_quit {text : Bytes} :
    ofText text = .quit ↔ Bytes.lower (Bytes.trim text) ∈ quitWords := by
  unfold ofText quitWords words
  generalize Bytes.lower (Bytes.trim text) = word
  simp only [List.lookup_cons, List.lookup_nil, List.mem_cons, List.not_mem_nil, or_false]
  repeat' split
  all_goals simp_all

namespace Dialogue

/-- What a dialogue keeps between two chunks, and its workspace. -/
structure Ledger where
  /-- The session. -/
  session : Session
  /-- The accepted entries, each on one line. -/
  history : List Bytes := []
  /-- The prompts that have been shown. -/
  prompts : List Bytes := []
  /-- The workspace. -/
  workspace : Workspace

/-- The ledger of a dialogue in a workspace. -/
def ledger (dialogue : Dialogue) (workspace : Workspace) : Ledger :=
  ⟨dialogue.session, dialogue.history, dialogue.prompts, workspace⟩

/-- The prompts for a number of answers, the first of which begins a chunk. -/
def promptsFor : Nat → List Bytes
  | 0 => []
  | further + 1 => firstPrompt :: List.replicate further furtherPrompt

namespace Ledger

/-- The dialogue between two chunks. -/
def dialogue (ledger : Ledger) : Dialogue :=
  { session := ledger.session, prompts := ledger.prompts, history := ledger.history }

/-- The ledger after a number of answers within one chunk. -/
def asked (ledger : Ledger) (count : Nat) : Ledger :=
  { ledger with prompts := ledger.prompts ++ promptsFor count }

/-- The ledger after a command that does not end the dialogue: a reset drops the entries, and the
others keep them. -/
def obeyed (ledger : Ledger) (command : DialogueCommand) : Ledger :=
  { ledger with
    session := if command = .reset then ledger.session.reset else ledger.session
    workspace := ((ledger.dialogue.obey command).run ledger.workspace).2 }

/-- The ledger after an accepted entry: it is in the session and once in the history, on one line,
and its module is shown. -/
def accepted (ledger : Ledger) (entry : Bytes) (unit : CompiledUnit) : Ledger :=
  { ledger with
    session := ledger.session.accept entry unit
    history := ledger.history ++ [entry.map fun byte => if byte == 0x0A then 0x20 else byte]
    workspace := ledger.workspace.print unit.module.text }

/-- The ledger after a refused entry: the failure is reported. -/
def refused (ledger : Ledger) (entry : Bytes) (failure : Failure) : Ledger :=
  { ledger with
    workspace := ledger.workspace.complain
      (failure.report (some (ledger.session.file entry)) fun _ => none) }

/-- The ledger with records in the log. -/
def logged (ledger : Ledger) (records : List LogRecord) : Ledger :=
  { ledger with workspace := ledger.workspace.log records }

/-- What is done with the text of a chunk, and whether the dialogue goes on. -/
inductive Acts (ledger : Ledger) (text : Bytes) : Ledger → Bool → Prop where
  /-- Nothing is done with a blank one. -/
  | blank (nothing : Bytes.trim text = []) : Acts ledger text ledger true
  /-- The words for it end the dialogue. -/
  | quit (isCommand : DialogueCommand.isCommand text = true)
      (word : Bytes.lower (Bytes.trim text) ∈ DialogueCommand.quitWords) :
      Acts ledger text ledger false
  /-- Other commands are obeyed. -/
  | command (isCommand : DialogueCommand.isCommand text = true)
      (other : Bytes.lower (Bytes.trim text) ∉ DialogueCommand.quitWords) :
      Acts ledger text (ledger.obeyed (.ofText text)) true
  /-- An entry is added once, and accepted. -/
  | accept {unit : CompiledUnit} {records : List LogRecord} (some : Bytes.trim text ≠ [])
      (noCommand : DialogueCommand.isCommand text = false)
      (added : (ledger.session.add text).run.run ledger.workspace =
        (.ok (unit, ledger.session.accept text unit), ledger.workspace.log records)) :
      Acts ledger text ((ledger.logged records).accepted text unit) true
  /-- An entry is added once, and refused for another reason than that it ends too early. -/
  | refuse {failure : Failure} {records : List LogRecord} (some : Bytes.trim text ≠ [])
      (noCommand : DialogueCommand.isCommand text = false)
      (added : (ledger.session.add text).run.run ledger.workspace =
        (.error failure, ledger.workspace.log records))
      (definite : failure.isIncomplete = false) :
      Acts ledger text ((ledger.logged records).refused text failure) true

/-- Answers lead from one ledger to another one, and some of them are left unread.  Each chunk is
acted on by itself, and lines that become no chunk are dropped. -/
inductive Leads : Ledger → List PromptAnswer → Ledger → List PromptAnswer → Prop where
  /-- The input ends behind lines that await another one. -/
  | ended {ledger : Ledger} {lines : List Bytes} (awaits : ledger.session.Awaits lines) :
      Leads ledger (lines.map .line)
        { ledger.asked (lines.length + 1) with workspace := ledger.workspace.print "\n" } []
  /-- Lines that await another one are interrupted. -/
  | interrupted {ledger final : Ledger} {lines : List Bytes} {answers left : List PromptAnswer}
      (awaits : ledger.session.Awaits lines)
      (leads : Leads (ledger.asked (lines.length + 1)) answers final left) :
      Leads ledger (lines.map .line ++ .interrupt :: answers) final left
  /-- A chunk behind which the dialogue goes on. -/
  | chunk {ledger next final : Ledger} {lines : List Bytes} {answers left : List PromptAnswer}
      (chunk : ledger.session.Chunk lines)
      (acts : Acts (ledger.asked lines.length) (Bytes.join "\n" lines) next true)
      (leads : Leads next answers final left) :
      Leads ledger (lines.map .line ++ answers) final left
  /-- A chunk behind which nothing is read. -/
  | stopped {ledger final : Ledger} {lines : List Bytes} {left : List PromptAnswer}
      (chunk : ledger.session.Chunk lines)
      (acts : Acts (ledger.asked lines.length) (Bytes.join "\n" lines) final false) :
      Leads ledger (lines.map .line ++ left) final left

section Acting

variable {ledger next : Ledger} {text : Bytes} {goesOn : Bool}

/-- A command other than that to end goes on from the ledger that it leaves. -/
theorem run_obey {command : DialogueCommand} (other : command ≠ .quit) :
    (ledger.dialogue.obey command).run ledger.workspace =
      (((ledger.obeyed command).dialogue, true), (ledger.obeyed command).workspace) := by
  cases command with
  | quit => exact absurd rfl other
  | run =>
      simp only [obeyed, obey, StateT.run_bind]
      rcases (ledger.dialogue.session.run.run).run ledger.workspace with
        ⟨failure | code, after⟩ <;> rfl
  | _ => rfl

/-- A command is no blank text. -/
theorem act_of_command (isCommand : DialogueCommand.isCommand text = true) (dialogue : Dialogue) :
    dialogue.act text = dialogue.obey (.ofText text) := by
  have some : (Bytes.trim text).isEmpty = false := by
    cases trimmed : Bytes.trim text with
    | nil => simp [DialogueCommand.isCommand, trimmed] at isCommand
    | cons => rfl
  simp [act, some, isCommand]

/-- An entry is entered. -/
theorem act_of_entry (some : Bytes.trim text ≠ [])
    (noCommand : DialogueCommand.isCommand text = false)
    (dialogue : Dialogue) :
    dialogue.act text = do return (← dialogue.enter text, true) := by
  simp [act, some, noCommand]

/-- What is said to be done with a text is what a dialogue does with it. -/
theorem Acts.run (acts : Acts ledger text next goesOn) :
    (ledger.dialogue.act text).run ledger.workspace =
      ((next.dialogue, goesOn), next.workspace) := by
  cases acts with
  | blank nothing =>
      simp only [act, nothing, List.isEmpty_nil, if_true]
      rfl
  | quit isCommand word =>
      rw [act_of_command isCommand, DialogueCommand.ofText_eq_quit.mpr word]
      rfl
  | command isCommand other =>
      rw [act_of_command isCommand, run_obey (other ∘ DialogueCommand.ofText_eq_quit.mp)]
  | accept some noCommand added =>
      simp only [act_of_entry some noCommand, enter, StateT.run_bind]
      rw [show ledger.dialogue.session = ledger.session from rfl, added]
      rfl
  | refuse some noCommand added definite =>
      simp only [act_of_entry some noCommand, enter, StateT.run_bind]
      rw [show ledger.dialogue.session = ledger.session from rfl, added]
      rfl

/-- What is done with a text leaves a session that is its entries, compiled. -/
theorem Acts.compiled {compiler : Compiler} (acts : Acts ledger text next goesOn)
    (before : ∃ entries, ledger.session.Compiled compiler entries) :
    ∃ entries, next.session.Compiled compiler entries := by
  obtain ⟨entries, compiled⟩ := before
  cases acts with
  | blank => exact ⟨entries, compiled⟩
  | quit => exact ⟨entries, compiled⟩
  | command =>
      dsimp only [obeyed]
      split
      · exact ⟨_, compiled.respond .reset ledger.workspace⟩
      · exact ⟨entries, compiled⟩
  | accept some noCommand added =>
      have later := compiled.respond (.add text) ledger.workspace
      simp only [Session.respond, StateT.run_bind, added] at later
      exact ⟨_, later⟩
  | refuse => exact ⟨entries, compiled⟩

end Acting

section Reading

variable {ledger final : Ledger} {lines : List Bytes} {line : Bytes} {rest : List PromptAnswer}

/-- The dialogue after lines that await another one. -/
def reading (ledger : Ledger) (lines : List Bytes) : Dialogue :=
  { (ledger.asked lines.length).dialogue with pending := Bytes.join "\n" lines }

theorem promptsFor_succ (count : Nat) :
    promptsFor (count + 1) = promptsFor count ++
      [if count = 0 then firstPrompt else furtherPrompt] := by
  cases count with
  | zero => rfl
  | succ further => simp [promptsFor, List.replicate_succ']

theorem awaitsMore_eq_true {text : Bytes} :
    (ledger.reading lines).asked.awaitsMore text = true ↔ ¬ledger.session.Settles text := by
  have same : (ledger.reading lines).asked.session = ledger.session := rfl
  rw [awaitsMore, same, Session.Settles]
  cases DialogueCommand.isCommand text <;> cases ledger.session.check text <;> simp

section Awaiting

variable (awaits : ledger.session.Awaits lines) (nothing : ledger.session.check [] = none)
include awaits nothing

/-- The prompt tells a first line from a further one. -/
theorem asked_reading :
    (ledger.reading lines).asked =
      { (ledger.asked (lines.length + 1)).dialogue with pending := Bytes.join "\n" lines } := by
  have isFirst := awaits.isEmpty_join nothing
  simp only [Dialogue.asked, reading, isFirst, dialogue, Ledger.asked, promptsFor_succ]
  cases lines <;> simp

/-- Another line stands behind the ones before. -/
theorem collected_asked_reading :
    (ledger.reading lines).asked.collected line = Bytes.join "\n" (lines ++ [line]) := by
  rw [asked_reading awaits nothing, collected, awaits.isEmpty_join nothing]
  cases lines with
  | nil => simp [Bytes.join, List.intercalate]
  | cons first others => exact (Bytes.join_concat _ line (List.cons_ne_nil first others)).symm

/-- An interrupt drops the lines. -/
theorem answer_interrupt :
    (ledger.reading lines).asked.answer .interrupt =
      pure ((ledger.asked (lines.length + 1)).dialogue, true) := by
  rw [asked_reading awaits nothing]
  rfl

/-- A line behind which the lines still await another one is kept. -/
theorem answer_further (unsettled : ¬ledger.session.Settles (Bytes.join "\n" (lines ++ [line]))) :
    (ledger.reading lines).asked.answer (.line line) =
      pure (ledger.reading (lines ++ [line]), true) := by
  have more := (@awaitsMore_eq_true ledger lines _).mpr unsettled
  simp only [answer, collected_asked_reading awaits nothing, more, if_true]
  rw [asked_reading awaits nothing, reading, List.length_append]
  rfl

/-- The line that completes a chunk is acted on with those before. -/
theorem answer_last (settles : ledger.session.Settles (Bytes.join "\n" (lines ++ [line]))) :
    (ledger.reading lines).asked.answer (.line line) =
      (ledger.asked (lines.length + 1)).dialogue.act (Bytes.join "\n" (lines ++ [line])) := by
  have enough :
    (ledger.reading lines).asked.awaitsMore (Bytes.join "\n" (lines ++ [line])) = false :=
    Bool.eq_false_iff.mpr fun more => awaitsMore_eq_true.mp more settles
  simp only [answer, collected_asked_reading awaits nothing, enough]
  rw [asked_reading awaits nothing]
  rfl

end Awaiting

/-- Lines that await another one are read without being acted on. -/
theorem lead_awaits (nothing : ledger.session.check [] = none)
    (awaits : ledger.session.Awaits lines) :
    ledger.dialogue.lead (lines.map .line ++ rest) = (ledger.reading lines).lead rest := by
  induction lines using List.reverseRecOn generalizing rest with
  | nil =>
      have same : ledger.reading [] = ledger.dialogue := by
        simp [reading, dialogue, asked, promptsFor]; rfl
      rw [same]
      rfl
  | append_singleton lines line ih =>
      have unsettled := awaits _ List.prefix_rfl (by simp)
      rw [List.map_append, List.append_assoc, ih awaits.front]
      simp only [List.map_cons, List.map_nil, List.cons_append, List.nil_append]
      rw [lead, answer_further awaits.front nothing unsettled, pure_bind]
      rfl

/-- A chunk is acted on. -/
theorem lead_chunk (nothing : ledger.session.check [] = none) (chunk : ledger.session.Chunk lines) :
    ledger.dialogue.lead (lines.map .line ++ rest) = do
      let (next, goesOn) ← (ledger.asked lines.length).dialogue.act (Bytes.join "\n" lines)
      if goesOn then next.lead rest else return (next, rest) := by
  obtain ⟨front, last, rfl, awaits⟩ := chunk.exists_concat
  rw [List.map_append, List.append_assoc, lead_awaits nothing awaits, List.length_append]
  simp only [List.map_cons, List.map_nil, List.cons_append, List.nil_append]
  rw [lead, answer_last awaits nothing chunk.settles]
  rfl

end Reading

section Leading

variable {ledger final : Ledger} {answers left : List PromptAnswer} {compiler : Compiler}

/-- Answers are cut into what is read before something is done and the answers behind it. -/
inductive Cut (session : Session) : List PromptAnswer → Prop where
  /-- The answers are lines that await another one. -/
  | ended {lines : List Bytes} (awaits : session.Awaits lines) : Cut session (lines.map .line)
  /-- Such lines are interrupted. -/
  | interrupted {lines : List Bytes} (awaits : session.Awaits lines) (rest : List PromptAnswer) :
      Cut session (lines.map .line ++ .interrupt :: rest)
  /-- There is a chunk. -/
  | chunk {lines : List Bytes} (chunk : session.Chunk lines) (rest : List PromptAnswer) :
      Cut session (lines.map .line ++ rest)

theorem cut (session : Session) (answers : List PromptAnswer) : Cut session answers := by
  have behind : ∀ answers lines, session.Awaits lines →
    Cut session (lines.map .line ++ answers) := by
    intro answers
    induction answers with
    | nil =>
        intro lines awaits
        rw [List.append_nil]
        exact .ended awaits
    | cons first rest ih =>
        intro lines awaits
        cases first with
        | interrupt => exact .interrupted awaits rest
        | line content =>
            have parts : lines.map PromptAnswer.line ++ .line content :: rest =
                (lines ++ [content]).map .line ++ rest := by simp
            rw [parts]
            by_cases settles : session.Settles (Bytes.join "\n" (lines ++ [content]))
            · exact .chunk (awaits.chunk settles) rest
            · exact ih _ (awaits.concat settles)
  exact behind answers [] .nil

/-- Where answers lead is where a dialogue is led by them. -/
theorem Leads.run (leads : Leads ledger answers final left)
    (compiled : ∃ entries, ledger.session.Compiled compiler entries) :
    let outcome := (ledger.dialogue.lead answers).run ledger.workspace
    outcome.1.1.ledger outcome.2 = final ∧ outcome.1.2 = left := by
  have settled : ∀ {ledger : Ledger}, (∃ entries, ledger.session.Compiled compiler entries) →
      ledger.session.check [] = none := fun ⟨_, compiled⟩ => compiled.check_nil
  induction leads with
  | @ended ledger lines awaits =>
      have read := @lead_awaits _ _ [] (settled compiled) awaits
      rw [List.append_nil] at read
      rw [read, lead, asked_reading awaits (settled compiled)]
      exact ⟨rfl, rfl⟩
  | @interrupted ledger final lines answers left awaits leads ih =>
      rw [lead_awaits (settled compiled) awaits, lead, answer_interrupt awaits (settled compiled),
        pure_bind]
      exact ih compiled
  | @chunk ledger next final lines answers left chunk acts leads ih =>
      simp only [lead_chunk (settled compiled) chunk, StateT.run_bind]
      rw [show ledger.workspace = (ledger.asked lines.length).workspace from rfl, acts.run]
      exact ih (acts.compiled compiled)
  | @stopped ledger final lines left chunk acts =>
      simp only [lead_chunk (settled compiled) chunk, StateT.run_bind]
      rw [show ledger.workspace = (ledger.asked lines.length).workspace from rfl, acts.run]
      exact ⟨rfl, rfl⟩

end Leading

end Ledger

/-- A loop on two lines, an entry that is interrupted, and a line behind the end of the dialogue. -/
example :
    let answers :=
      ["while (true) \x7b", "\x7d", "var x ="].map (PromptAnswer.line ∘ Bytes.ofString) ++
      [PromptAnswer.interrupt, .line ":Q", .line "x;"]
    let outcome :=
      (lead { session := { compiler := { options := {} } } } answers).run { files := ⟨[], []⟩ }
    outcome.1.1.history = [Bytes.ofString "while (true) \x7b \x7d"] ∧
      outcome.1.2 = [.line "x;"] := by
  decide +kernel

end Dialogue

end ScriptCompiler
