import ScriptCompiler.Proofs.Layout.Standing
import ScriptCompiler.Proofs.Lowering.BuiltModule
import ScriptCompiler.Proofs.Usage.Surveys

/-!
# Unused variables

The scopes of a built program are those of its tree, and the variables that are reported as unused
are just those that no name in the tree refers to, each once, scope by scope and in the order of the
source (`build_unused`).
-/

namespace ScriptCompiler.Lowering

open IR Build ScopeTable

variable {state last : State} {context top : Nat} {sight outer : Sight} {own globals : List Binding}

/-! ### Functions -/

section Functions

theorem spillParams_surveys (params : List (Param × Place)) {own : List Binding} :
    Surveys context (own :: outer) (spillParams context params)
      (params.map fun spilled => spilled.1.binding) [] [] := by
  induction params generalizing own with
  | nil => exact .quiet fun _ _ _ run => congrArg State.table (Prod.mk.inj (pure_ok.mp run)).2
  | cons spilled rest ih =>
      obtain ⟨param, place⟩ := spilled
      intro state last _ stands run
      obtain ⟨symbol, table, declares, restRun⟩ := spillParams_cons_ok run
      have first :
        state.Survey ((state.withTable table).hold symbol place.type (.param place)) context
          [param.binding] [] [] := Survey.declare stands.tidy declares rfl fun _ => rfl
      exact Survey.trans stands.inside first (ih _ _ _ (stands.behind first) restRun)

/-- Lowering a function, behind statements of the context around it. -/
theorem lowerFunction_surveys {prologue : List Stmt} {declared : Declared}
    (aligned : declared.declaration.params.length = declared.function.params.length) :
    Surveys context (own :: outer) (lowerFunction context prologue declared)
      (prologue.flatMap Stmt.adds) (Stmt.allScopes prologue ++ declared.declaration.scopes)
      (Stmt.allMentions outer own prologue ++
        declared.declaration.mentions ((own ++ prologue.flatMap Stmt.adds) :: outer)) := by
  intro state last function stands run
  obtain ⟨middle, spilled, ended, prologueRun, spillRun, bodyRun, -, rfl⟩ := lowerFunction_ok run
  have begun : (state.begin declared.function).Stands context (own :: outer) := stands.congr rfl
  have before := lowerStmts_surveys prologue _ _ _ begun prologueRun
  have inside := (begun.behind before).openScope .function declared.declaration.name.name
  have spilling := spillParams_surveys _ _ _ _ inside spillRun
  have params : (declared.declaration.params.zip declared.function.params).map
      (fun spilled => spilled.1.binding) = declared.declaration.params.map Param.binding := by
    have firsts := List.map_fst_zip (Nat.le_of_eq aligned)
    rw [← congrArg (List.map Param.binding) firsts, List.map_map]
    rfl
  rw [params] at spilling
  have body := lowerStmts_surveys declared.declaration.body _ _ _ (inside.behind spilling) bodyRun
  have scope := Survey.scope (Survey.trans inside.inside spilling body)
  have whole := Survey.trans stands.inside before scope
  rw [List.append_nil] at whole
  rw [State.Survey, ended.finish_same.2.1]
  exact whole

theorem lowerTopLevel_surveys {name : Bytes} {statements : List Stmt} :
    Surveys context (own :: outer) (lowerTopLevel context name statements)
      (statements.flatMap Stmt.adds)
      (Stmt.allScopes statements) (Stmt.allMentions outer own statements) := by
  intro state last function stands run
  obtain ⟨ended, bodyRun, -, rfl⟩ := lowerTopLevel_ok run
  have begun : (state.begin (Function.ofSignature name [] .int)).Stands context (own :: outer) :=
    stands.congr rfl
  exact State.survey_congr (lowerStmts_surveys statements _ _ _ begun bodyRun) rfl
    ended.finish_same.2.1

theorem declareFunction_surveys (declaration : FunctionDecl) :
    Surveys root (own :: outer) (declareFunction declaration) [declaration.binding] [] [] := by
  intro state last declared stands run
  obtain ⟨-, -, owned, table, declares, rfl⟩ := declareFunction_ok run
  exact Survey.declare stands.tidy declares rfl fun notFunction => absurd rfl notFunction

/-- All functions are declared before any body. -/
theorem declareAll_surveys (functions : List FunctionDecl) {own : List Binding} :
    Surveys root (own :: outer) (functions.mapM declareFunction)
      (functions.map FunctionDecl.binding) [] [] := by
  induction functions generalizing own with
  | nil => exact .quiet fun _ _ _ run => congrArg State.table (Prod.mk.inj (mapM_nil_ok.mp run)).2
  | cons declaration functions ih =>
      intro state last items stands run
      obtain ⟨item, middle, others, _, firstRun, restRun, same⟩ := mapM_cons_ok.mp run
      obtain ⟨-, rfl⟩ := Prod.mk.inj same
      have before := declareFunction_surveys declaration _ _ _ stands firstRun
      exact Survey.trans stands.inside before (ih _ _ _ (stands.behind before) restRun)

/-- The declared functions are those of the program, with their parameters. -/
theorem declareAll_aligned {functions : List FunctionDecl} {items : List Declared}
    (run : functions.mapM declareFunction state = .ok (items, last)) :
    items.map Declared.declaration = functions ∧
      ∀ item ∈ items, item.declaration.params.length = item.function.params.length := by
  induction functions generalizing state items with
  | nil =>
      obtain ⟨rfl, -⟩ := Prod.mk.inj (mapM_nil_ok.mp run)
      exact ⟨rfl, List.forall_mem_nil _⟩
  | cons declaration functions ih =>
      obtain ⟨item, middle, others, _, firstRun, restRun, same⟩ := mapM_cons_ok.mp run
      obtain ⟨rfl, rfl⟩ := Prod.mk.inj same
      obtain ⟨isDeclaration, ⟨params, result, header⟩, -⟩ := declareFunction_ok firstRun
      obtain ⟨declarations, aligned⟩ := ih restRun
      exact ⟨by rw [List.map_cons, isDeclaration, declarations],
        List.forall_mem_cons.mpr ⟨header.length_eq, aligned⟩⟩

end Functions

/-! ### Bodies -/

section Bodies

/-- The functions of a program are in sight of the root, and what has been declared at top level in
a context of its own. -/
structure State.Framed (state : State) (top : Nat) (globals own : List Binding) : Prop where
  /-- What is in sight of the root. -/
  root : state.Stands root [globals]
  /-- What is in sight at top level. -/
  topLevel : state.Stands top [own, globals]
  /-- The root comes first. -/
  nested : ScopeTable.root < top

theorem State.Framed.behind {adds : List Binding} {opened : List (List Binding)}
    {mentions : List Mention}
    (framed : state.Framed top globals own) (survey : state.Survey last top adds opened mentions) :
    last.Framed top globals (own ++ adds) where
  root := ⟨survey.tidy, survey.shows_outer framed.root.tidy.ordered framed.root.shows framed.nested⟩
  topLevel := framed.topLevel.behind survey
  nested := framed.nested

/-- The scopes of a function, behind those of the statements at top level if it is the entry
function. -/
def bodyScopes (isEntry : FunctionDecl → Bool) (program : Program) (declaration : FunctionDecl) :
    List (List Binding) :=
  (if isEntry declaration then Stmt.allScopes program.statements else []) ++ declaration.scopes

/-- The names in a function, behind those in the statements at top level if it is the entry
function. -/
def bodyMentions (isEntry : FunctionDecl → Bool) (program : Program) (declaration : FunctionDecl) :
    List Mention :=
  if isEntry declaration then
    Stmt.allMentions [program.globals] [] program.statements ++
      declaration.mentions [program.topLevel, program.globals]
  else declaration.mentions [program.globals]

variable {isEntry : FunctionDecl → Bool} {program : Program}

theorem lowerBody_survey {item : Declared} {function : Function}
    (aligned : item.declaration.params.length = item.function.params.length)
    (framed : state.Framed top program.globals own)
    (fresh : isEntry item.declaration = true → own = [])
    (run : (if isEntry item.declaration then lowerFunction top program.statements item
      else lowerFunction root [] item) state = .ok (function, last)) :
    state.Survey last top (if isEntry item.declaration then program.topLevel else [])
      (bodyScopes isEntry program item.declaration)
      (bodyMentions isEntry program item.declaration) := by
  unfold bodyScopes bodyMentions
  cases entry : isEntry item.declaration with
  | true =>
      rw [entry, if_pos rfl] at run
      obtain rfl := fresh entry
      exact lowerFunction_surveys aligned _ _ _ framed.topLevel run
  | false =>
      rw [entry, if_neg Bool.false_ne_true] at run
      have survey := lowerFunction_surveys aligned _ _ _ framed.root run
      rw [List.flatMap_nil, List.append_nil] at survey
      exact Survey.elsewhere survey top

/-- The bodies of a program, of which one at most is that of the entry function. -/
theorem lowerBodies_survey {items : List Declared} {functions : List Function}
    (aligned : ∀ item ∈ items, item.declaration.params.length = item.function.params.length)
    (single : (items.map Declared.declaration).Pairwise fun first second =>
      isEntry first = true → isEntry second = false)
    (framed : state.Framed top program.globals own)
    (fresh : (items.map Declared.declaration).any isEntry = true → own = [])
    (run : (items.mapM fun item =>
      if isEntry item.declaration then lowerFunction top program.statements item
      else lowerFunction root [] item) state = .ok (functions, last)) :
    state.Survey last top
      (if (items.map Declared.declaration).any isEntry then program.topLevel else [])
      ((items.map Declared.declaration).flatMap (bodyScopes isEntry program))
      ((items.map Declared.declaration).flatMap (bodyMentions isEntry program)) := by
  induction items generalizing state own functions with
  | nil =>
      obtain ⟨-, rfl⟩ := Prod.mk.inj (mapM_nil_ok.mp run)
      exact framed.topLevel.nothing rfl
  | cons item items ih =>
      obtain ⟨here, there⟩ := List.forall_mem_cons.mp aligned
      obtain ⟨apart, single⟩ := List.pairwise_cons.mp single
      obtain ⟨function, middle, others, _, firstRun, restRun, same⟩ := mapM_cons_ok.mp run
      obtain ⟨-, rfl⟩ := Prod.mk.inj same
      have before := lowerBody_survey here framed
        (fun entry => fresh (by rw [List.map_cons, List.any_cons, entry, Bool.true_or])) firstRun
      rw [List.map_cons, List.any_cons]
      cases entry : isEntry item.declaration with
      | true =>
          have none : (items.map Declared.declaration).any isEntry = false :=
            List.any_eq_false.mpr fun other member => by simp [apart other member entry]
          have behind := ih there single (framed.behind before) (by rw [none]; nofun) restRun
          rw [none] at behind
          rw [entry] at before
          exact List.append_nil program.topLevel ▸ Survey.trans framed.topLevel.inside before behind
      | false =>
          rw [entry] at before
          have next : middle.Framed top program.globals own :=
            List.append_nil own ▸ framed.behind before
          have behind := ih there single next (fun some => fresh (by simp [entry, some])) restRun
          exact framed.topLevel.trans before behind

/-- The bodies of functions that are all plain. -/
theorem lowerPlains_survey {items : List Declared} {functions : List Function}
    (aligned : ∀ item ∈ items, item.declaration.params.length = item.function.params.length)
    (framed : state.Framed top program.globals own)
    (run : items.mapM (lowerFunction root []) state = .ok (functions, last)) :
    state.Survey last top [] ((items.map Declared.declaration).flatMap FunctionDecl.scopes)
      ((items.map Declared.declaration).flatMap (FunctionDecl.mentions [program.globals])) := by
  have nobody : (items.map Declared.declaration).any (fun _ => false) = false :=
    List.any_eq_false.mpr fun _ _ => Bool.false_ne_true
  have survey : state.Survey last top
      (if (items.map Declared.declaration).any (fun _ => false) then program.topLevel else [])
      ((items.map Declared.declaration).flatMap (bodyScopes (fun _ => false) program))
      ((items.map Declared.declaration).flatMap (bodyMentions (fun _ => false) program)) :=
    lowerBodies_survey aligned (List.pairwise_iff_forall_sublist.mpr fun _ => nofun) framed
      (by rw [nobody]; nofun) run
  rw [nobody] at survey
  exact survey

/-- The names in the bodies are those of the program. -/
theorem mem_bodyMentions (some : program.functions.any isEntry = true) {mention : Mention} :
    mention ∈ program.functions.flatMap (bodyMentions isEntry program) ↔
      mention ∈ program.mentions isEntry := by
  rw [Program.mentions, List.mem_append, List.mem_flatMap, List.mem_flatMap]
  constructor
  · rintro ⟨declaration, there, within⟩
    unfold bodyMentions at within
    split at within
    · rename_i entry
      rcases List.mem_append.mp within with top | inside
      · exact .inl top
      · exact .inr ⟨declaration, there, by rwa [if_pos entry]⟩
    · rename_i plain
      exact .inr ⟨declaration, there, by rwa [if_neg plain]⟩
  · rintro (top | ⟨declaration, there, within⟩)
    · obtain ⟨declaration, there, entry⟩ := List.any_eq_true.mp some
      refine ⟨declaration, there, ?_⟩
      rw [bodyMentions, if_pos entry]
      exact List.mem_append_left _ top
    · refine ⟨declaration, there, ?_⟩
      unfold bodyMentions
      split at within
      · rename_i entry
        rw [if_pos entry]
        exact List.mem_append_right _ within
      · rename_i plain
        rwa [if_neg plain]

end Bodies

/-! ### Programs -/

section Programs

variable {options : EntryOptions} {file : SourceFile} {program : Program}

theorem record?_ofFile {record : ScopeRecord}
    (found : (ScopeTable.ofFile file).record? context = some record) :
    record.parent = none ∧ record.symbols = [] := by
  obtain rfl := List.mem_singleton.mp (List.mem_of_getElem? found)
  exact ⟨rfl, rfl⟩

theorem stands_ofFile (tables : state.table = .ofFile file) : state.Stands root [[]] where
  tidy := by
    rw [tables]
    refine ⟨fun context record parent found above => ?_, fun context record found => ?_⟩
    · rw [(record?_ofFile found).1] at above
      cases above
    · refine ⟨?_, ?_, ?_⟩ <;> rw [(record?_ofFile found).2]
      · exact List.nodup_nil
      · exact List.forall_mem_nil _
      · exact List.forall_mem_nil _
  shows := by
    rw [tables]
    obtain ⟨record, found, top, same⟩ :
      ∃ record, (ScopeTable.ofFile file).record? root = some record ∧
        record.parent = none ∧ record.bindings = [] := ⟨_, rfl, rfl, rfl⟩
    exact same ▸ .outermost found top

theorem not_uses_ofFile (binding : Binding) : ¬ (ScopeTable.ofFile file).Uses binding := by
  rintro ⟨context, record, found, symbol, member, -⟩
  rw [(record?_ofFile found).2] at member
  cases member

/-- What the scopes of a program are once it has been lowered. -/
structure Shares (isEntry : FunctionDecl → Bool) (program : Program) (table : ScopeTable) :
    Prop where
  /-- The table is tidy. -/
  tidy : table.Tidy
  /-- One function at most is the entry function. -/
  single : program.functions.Pairwise fun first second => isEntry first = true →
    isEntry second = false
  /-- The scopes are those of the program. -/
  bindings : table.bindings = program.scopes isEntry
  /-- What is used are the declarations that names refer to. -/
  uses : ∀ binding : Binding, binding.kind ≠ .function →
    (table.Uses binding ↔ program.Mentions isEntry binding)

/-- One function at most has the name of the entry function. -/
theorem single_of_declared {table : ScopeTable} (tidy : table.Tidy)
    (bindings : table.bindings = [program.globals]) :
    program.functions.Pairwise fun first second =>
      isEntry options first = true → isEntry options second = false := by
  obtain ⟨record, found, same⟩ : ∃ record, table.record? root = some record ∧
      record.bindings = program.globals := by
    have first := table.bindings_getElem? root
    rw [bindings] at first
    exact (Option.map_eq_some_iff.mp first.symm)
  have names : (program.functions.map fun declaration => declaration.name.name).Nodup := by
    have distinct := (tidy.records root record found).distinct
    have viaBindings : record.symbols.map Symbol.name = record.bindings.map Binding.name := by
      rw [ScopeRecord.bindings, List.map_map]
      rfl
    rw [viaBindings, same, Program.globals, List.map_map] at distinct
    exact distinct
  refine (List.pairwise_map.mp names).imp fun {first second} differ entry => ?_
  by_contra other
  simp only [isEntry, Bool.and_eq_true, beq_iff_eq, Bool.not_eq_false] at entry other
  exact differ (entry.2.trans other.2.symm)

theorem lowerItems_shares {stem entry : Bytes} {functions : List Function}
    (tables : state.table = .ofFile file)
    (run : lowerItems options stem program state = .ok ((entry, functions), last)) :
    Shares (isEntry options) program last.table := by
  have stands := stands_ofFile tables
  obtain ⟨items, middle, declares, choice⟩ := lowerItems_ok run
  obtain ⟨declarations, aligned⟩ := declareAll_aligned declares
  have declaring := declareAll_surveys program.functions _ _ _ stands declares
  have ready : middle.Stands root [program.globals] := stands.behind declaring
  have globals : middle.table.bindings = [program.globals] := by
    rw [declaring.bindings, tables]
    rfl
  have single : program.functions.Pairwise fun first second =>
      isEntry options first = true → isEntry options second = false :=
    single_of_declared ready.tidy globals
  have opening : middle.Survey middle.openTopLevel root [] [[]] [] :=
    Survey.scope (Survey.nothing (ready.openScope .topLevel "<toplevel>").tidy)
  have framed : middle.openTopLevel.Framed middle.nextContext program.globals [] :=
    ⟨ready.still opening, ready.openScope .topLevel "<toplevel>", ready.inside⟩
  -- Before the first body there are two scopes, and nothing has been used.
  have scopes : middle.openTopLevel.table.bindings = [program.globals, []] := by
    rw [opening.bindings, globals, Survey.modify_append_nil]
    rfl
  have place : middle.nextContext = 1 := by
    rw [State.nextContext, ← length_bindings, globals]
    rfl
  have unused : ∀ binding : Binding, binding.kind ≠ .function →
      ¬ middle.openTopLevel.table.Uses binding := by
    intro binding kind
    rw [opening.uses binding kind, declaring.uses binding kind, tables]
    simpa using not_uses_ofFile binding
  have finish : ∀ {adds : List Binding} {inner : List (List Binding)} {mentions : List Mention},
      middle.openTopLevel.Survey last middle.nextContext adds inner mentions →
      program.globals :: adds :: inner = program.scopes (isEntry options) →
      (∀ binding, (∃ mention ∈ mentions, mention.target = some binding) ↔
        program.Mentions (isEntry options) binding) →
      Shares (isEntry options) program last.table := by
    intro adds inner mentions survey isScopes isMentions
    refine ⟨survey.tidy, single, ?_, fun binding kind => ?_⟩
    · rw [← isScopes, survey.bindings, scopes, place]
      rfl
    · rw [survey.uses binding kind, ← isMentions binding]
      simp [unused binding kind]
  rcases choice with ⟨some, -, bodies⟩ | ⟨none, -, -, first, others, between, entryRun, bodies, -⟩
  · have some : program.functions.any (isEntry options) = true := by
      rw [← declarations, List.any_map]
      exact some
    have survey := lowerBodies_survey aligned (declarations ▸ single) framed (fun _ => rfl) bodies
    rw [declarations, if_pos some] at survey
    refine finish survey ?_ fun binding => ?_
    · rw [Program.scopes, if_pos some]
      rfl
    · simp only [mem_bodyMentions some, Program.Mentions]
  · have none : program.functions.any (isEntry options) = false := by
      rw [← declarations, List.any_map]
      exact none
    have plain : ∀ declaration ∈ program.functions, isEntry options declaration = false :=
      fun declaration member => by simpa using List.any_eq_false.mp none declaration member
    have entrySurvey := lowerTopLevel_surveys _ _ _ framed.topLevel entryRun
    have survey := lowerPlains_survey aligned (framed.behind entrySurvey) bodies
    rw [declarations] at survey
    have whole := Survey.trans framed.topLevel.inside entrySurvey survey
    rw [List.append_nil] at whole
    have mentions : (program.functions.flatMap fun declaration => declaration.mentions
        (if isEntry options declaration then [program.topLevel, program.globals]
          else [program.globals])) =
        program.functions.flatMap (FunctionDecl.mentions [program.globals]) :=
      List.flatMap_congr fun declaration member => by rw [plain declaration member]; rfl
    refine finish whole ?_ fun binding => ?_
    · rw [Program.scopes, none]
      rfl
    · rw [Program.Mentions, Program.mentions, mentions]

/-- The table of a built program. -/
theorem build_shares {built : Built} (run : build options file program = .ok built) :
    Shares (isEntry options) program built.table := by
  unfold build at run
  simp only [StateT.run, bind, Except.bind] at run
  split at run
  · cases run
  · rename_i outcome lowered
    obtain ⟨⟨entry, functions⟩, last⟩ := outcome
    cases run
    exact lowerItems_shares rfl lowered

end Programs

/-! ### What is reported -/

section Reports

/-- Bindings stand one behind the other. -/
def InOrder (bindings : List Binding) : Prop :=
  bindings.Pairwise fun first second => first.position.offset < second.position.offset

variable {options : EntryOptions} {file : SourceFile} {program : Program} {tokens : List Token}

/-- What a program declares is declared at one place after the other. -/
theorem bindings_inOrder (parsed : file.parse = .ok (tokens, program)) :
    InOrder program.bindings := by
  obtain ⟨scanned, read⟩ := SourceFile.ofTokens_of_parse parsed
  have tokensInOrder : Token.InOrder (Program.content tokens) :=
    (SourceFile.tokens_inOrder scanned).1.sublist (List.takeWhile_sublist _)
  have places := (Program.derived_of_ofTokens read).places
  have positions : (program.bindings.map Binding.position).Pairwise fun first second =>
      first.offset < second.offset :=
    List.Pairwise.sublist places (List.pairwise_map.mpr tokensInOrder)
  rwa [List.pairwise_map] at positions

/-- The unused variables of a scope whose symbols are in order. -/
theorem unused_of_inOrder {record : ScopeRecord} (inOrder : InOrder record.bindings) :
    record.unused = record.symbols.filter fun symbol => !symbol.used && symbol.kind ==
      .variable := by
  refine List.mergeSort_of_pairwise (List.Pairwise.filter _ ?_)
  refine (List.pairwise_map.mp inOrder).imp fun {first second} before => ?_
  simp only [Position.before, Bool.not_eq_true', decide_eq_false_iff_not, not_lt]
  exact Int.le_of_lt before

theorem unused_eq {table : ScopeTable} (inOrder : ∀ scope ∈ table.bindings, InOrder scope) :
    table.unused = (table.records.flatMap ScopeRecord.symbols).filter fun symbol =>
      !symbol.used && symbol.kind == .variable := by
  rw [ScopeTable.unused, List.filter_flatMap]
  exact List.flatMap_congr fun record member =>
    unused_of_inOrder (inOrder _ (List.mem_map_of_mem member))

theorem flatten_bindings (table : ScopeTable) :
    table.bindings.flatten = (table.records.flatMap ScopeRecord.symbols).map Symbol.binding := by
  rw [List.map_flatMap, ScopeTable.bindings, List.flatMap_def]
  rfl

/-- In a table whose symbols are told apart by their bindings, a variable is unused if its binding
is. -/
theorem mem_unused_iff {table : ScopeTable}
    (distinct : ((table.records.flatMap ScopeRecord.symbols).map Symbol.binding).Nodup)
    (binding : Binding) :
    binding ∈ ((table.records.flatMap ScopeRecord.symbols).filter fun symbol =>
        !symbol.used && symbol.kind == .variable).map Symbol.binding ↔
      binding ∈ table.bindings.flatten ∧ binding.kind = .variable ∧ ¬ table.Uses binding := by
  rw [flatten_bindings]
  constructor
  · intro member
    obtain ⟨symbol, kept, rfl⟩ := List.mem_map.mp member
    obtain ⟨there, passes⟩ := List.mem_filter.mp kept
    obtain ⟨unused, isVariable⟩ := Bool.and_eq_true_iff.mp passes
    refine ⟨List.mem_map_of_mem there, beq_iff_eq.mp isVariable, ?_⟩
    rintro ⟨context, record, found, other, within, used, same⟩
    have alsoThere : other ∈ table.records.flatMap ScopeRecord.symbols :=
      List.mem_flatMap.mpr ⟨record, List.mem_of_getElem? found, within⟩
    rw [List.inj_on_of_nodup_map distinct alsoThere there same] at used
    rw [used] at unused
    cases unused
  · rintro ⟨member, isVariable, unused⟩
    obtain ⟨symbol, there, rfl⟩ := List.mem_map.mp member
    refine List.mem_map_of_mem (List.mem_filter.mpr ⟨there, ?_⟩)
    obtain ⟨record, inTable, within⟩ := List.mem_flatMap.mp there
    obtain ⟨context, found⟩ := List.getElem?_of_mem inTable
    have notUsed : symbol.used = false := by
      by_contra used
      exact unused ⟨context, record, found, symbol, within, by simpa using used, rfl⟩
    exact Bool.and_eq_true_iff.mpr ⟨by rw [notUsed]; rfl, beq_iff_eq.mpr isVariable⟩

/-- **Just the variables that no name refers to are reported as unused.**  Each is reported once,
scope by scope in the order in which the scopes begin, and within a scope in the order of the
source. -/
theorem build_unused {built : Built} (parsed : file.parse = .ok (tokens, program))
    (run : build options file program = .ok built) :
    (∀ binding, binding ∈ built.unused.map Symbol.binding ↔
      binding ∈ program.bindings ∧ binding.kind = .variable ∧
        ¬ program.Mentions (isEntry options) binding) ∧
    (built.unused.map Symbol.binding).Nodup ∧
    built.table.bindings = program.scopes (isEntry options) ∧
    (built.unused.map Symbol.binding).Sublist (program.scopes (isEntry options)).flatten ∧
    ∀ scope ∈ program.scopes (isEntry options), InOrder scope := by
  have shares := build_shares run
  have inOrder := bindings_inOrder parsed
  have scopesInOrder : ∀ scope ∈ program.scopes (isEntry options), InOrder scope :=
    fun scope member => inOrder.sublist (Program.sublist_bindings scope member)
  have partition := Program.perm_bindings shares.single
  have symbols : (built.table.records.flatMap ScopeRecord.symbols).map Symbol.binding =
      (program.scopes (isEntry options)).flatten := by
    rw [← flatten_bindings, shares.bindings]
  have distinct : ((built.table.records.flatMap ScopeRecord.symbols).map Symbol.binding).Nodup := by
    rw [symbols, partition.nodup_iff]
    exact inOrder.imp fun before same => absurd (same ▸ before) (Int.lt_irrefl _)
  have unused :
    built.unused = (built.table.records.flatMap ScopeRecord.symbols).filter fun symbol =>
      !symbol.used && symbol.kind == .variable := unused_eq (shares.bindings ▸ scopesInOrder)
  have within :
    (built.unused.map Symbol.binding).Sublist (program.scopes (isEntry options)).flatten := by
    rw [← symbols, unused]
    exact List.filter_sublist.map _
  refine ⟨fun binding => ?_, ?_, shares.bindings, within, scopesInOrder⟩
  · rw [unused, mem_unused_iff distinct, shares.bindings, partition.mem_iff]
    refine and_congr_right fun _ => and_congr_right fun isVariable =>
      not_congr (shares.uses binding ?_)
    rw [isVariable]
    decide
  · exact List.Nodup.sublist (symbols ▸ within) distinct

/-- A variable that hides the one it begins with, a loop that leaves its variable alone, and a
variable behind the end of a round. -/
def hidingFile : SourceFile :=
  ⟨"hide.tss", Bytes.ofString "var a = 1; { var a = a; } for (var i = 0; ; ) { break; var d = 0; }"⟩

/-- The outer variable is the only one that a name refers to. -/
theorem build_unused_hiding : ∃ tokens program built, hidingFile.parse = .ok (tokens, program) ∧
    build {} hidingFile program = .ok built ∧
    built.unused.map (fun symbol => symbol.position.offset) = [17, 35, 59] ∧
    ∀ binding ∈ built.unused.map Symbol.binding, ¬ program.Mentions (isEntry {}) binding := by
  have check : (match hidingFile.parse with
      | .error _ => false
      | .ok (_, program) =>
          match build {} hidingFile program with
          | .error _ => false
          | .ok built => built.unused.map (fun symbol => symbol.position.offset) == [17, 35, 59]) =
              true := by
    simp only [hidingFile, Bytes.ofString_eq]
    decide +kernel
  split at check
  · cases check
  · rename_i tokens program parsed
    split at check
    · cases check
    · rename_i built run
      exact ⟨tokens, program, built, parsed, run, beq_iff_eq.mp check, fun binding member =>
        (((build_unused parsed run).1 binding).mp member).2.2⟩

end Reports

end ScriptCompiler.Lowering
