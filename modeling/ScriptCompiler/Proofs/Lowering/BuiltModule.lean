import ScriptCompiler.Proofs.Lowering.ProgramCourse

/-!
# Built modules

Each function of a built module is lowered from one function of the source, in the same order
(`build_translates`).  So a built module is sound (`Translates.sound`), and it is well formed unless
the statements at top level end in a terminator before the parameters of the entry function get
their slots.
-/

namespace ScriptCompiler.Lowering

open IR Build Semantics

variable {signature? : Bytes → Option Signature} {state last : State} {function : Function}
  {source : SourceFunction}

/-- Whether the first parameter of a function gets its slot behind a terminator. -/
def SourceSpillsLate (source : SourceFunction) : Prop :=
  Stmt.closesAll (source.topLevel.getD []) = true ∧ source.params ≠ []

theorem sourceSpillsLate_iff {topLevel : Option (List Stmt)} {declaration : FunctionDecl} :
    SourceSpillsLate (sourceFunction topLevel declaration) ↔
      SpillsLate (topLevel.getD []) declaration.params := by
  simp [SourceSpillsLate, SpillsLate, sourceFunction]

/-- A function of the source is lowered to a function. -/
inductive Lowers (signature? : Bytes → Option Signature) :
    State → SourceFunction → Function → State → Prop where
  /-- A declared function is lowered, perhaps behind the statements at top level. -/
  | own {state last : State} {parent : Nat} {topLevel : Option (List Stmt)} {declared : Declared}
      {params : List (Bytes × BasicType)} {result : BasicType} {function : Function}
      (header : declared.Header params result) (idle : state.Idle)
      (plain : state.Plain signature? parent)
      (topLevelWritten : Stmt.AllWritten (topLevel.getD []))
      (bodyWritten : Stmt.AllWritten declared.declaration.body)
      (run : lowerFunction parent (topLevel.getD []) declared state = .ok (function, last)) :
      Lowers signature? state (sourceFunction topLevel declared.declaration) function last
  /-- The statements at top level are lowered. -/
  | topLevel {state last : State} {context : Nat} {name : Bytes} {statements : List Stmt}
      {function : Function} (idle : state.Idle) (plain : state.Plain signature? context)
      (written : Stmt.AllWritten statements)
      (run : lowerTopLevel context name statements state = .ok (function, last)) :
      Lowers signature? state (topLevelFunction name statements) function last

theorem Declared.Header.result_eq {declared : Declared} {params : List (Bytes × BasicType)}
    {result : BasicType} (header : declared.Header params result) (topLevel : Option (List Stmt)) :
    (sourceFunction topLevel declared.declaration).result = result := by
  have named := header.named
  rw [sourceFunction]
  cases given : declared.declaration.result with
  | none =>
      rw [given] at named
      exact Option.some.inj named
  | some identifier =>
      rw [given] at named
      simp only [Option.map_some, Option.getD_some] at named ⊢
      rw [named]
      rfl

theorem Lowers.makes (lowers : Lowers signature? state source function last) :
    ∃ (limit : Nat) (empty : Function) (ended after : Draft),
      Makes signature? limit state empty (¬ SourceSpillsLate source) ended after ∧
      after.state = last ∧ function = after.state.function ∧
      (empty.params.map Place.name).Nodup ∧ empty.name = source.name ∧
      empty.params.map Place.name = source.params ∧ empty.result = source.result ∧
      (∃ name params result, empty = .ofSignature name params result) ∧ state.Idle := by
  cases lowers with
  | @own _ _ _ declared _ _ _ header idle plain topLevelWritten bodyWritten run =>
      obtain ⟨_, _, ended, after, -, makes, same, isFunction, nodup⟩ :=
        lowerFunction_makes header idle plain topLevelWritten bodyWritten run
      rw [← sourceSpillsLate_iff] at makes
      have result :
        declared.function.result = (sourceFunction none declared.declaration).result := by
        rw [header.function_eq]
        exact (header.result_eq none).symm
      exact ⟨_, _, ended, after, makes, same, isFunction, nodup, header.name, header.names, result,
        ⟨_, _, _, header.function_eq⟩, idle⟩
  | topLevel idle plain written run =>
      rename_i context name statements
      obtain ⟨ended, after, -, -, makes, same, isFunction⟩ :=
        lowerTopLevel_makes idle plain written run
      have never : True = ¬ SourceSpillsLate (topLevelFunction name statements) := by
        simp [SourceSpillsLate, topLevelFunction]
      rw [never] at makes
      exact ⟨_, _, ended, after, makes, same, isFunction, List.nodup_nil, rfl, rfl, rfl,
        ⟨_, _, _, rfl⟩, idle⟩

section Results

variable (lowers : Lowers signature? state source function last)
include lowers

/-- A function comes from an empty one by the moves of lowering. -/
theorem Lowers.moves : ∃ (name : Bytes) (params : List (Bytes × BasicType)) (result : BasicType)
    (after : Draft), (Draft.begin state (.ofSignature name params result)).Sound signature? ∧
      Moves signature? False (Draft.begin state (.ofSignature name params result)) after ∧
      after.state = last ∧ function = after.state.function := by
  obtain ⟨_, _, _, after, made, same, isFunction, -, -, -, -, ⟨name, params, result, rfl⟩, idle⟩ :=
    lowers.makes
  refine ⟨name, params, result, after, Draft.begin_sound idle, ?_, same, isFunction⟩
  exact Relation.ReflTransGen.trans made.moves (made.finished.moves.mono False.elim)

theorem Lowers.name_eq : function.name = source.name := by
  obtain ⟨_, _, _, _, made, -, rfl, -, name, -⟩ := lowers.makes
  exact made.grows.name_eq.trans name

theorem Lowers.valid : function.result ≠ .invalid := by
  obtain ⟨_, _, _, _, made, -, rfl, -, -, -, result, -⟩ := lowers.makes
  rw [made.grows.result_eq.trans result]
  cases lowers with
  | own header =>
      rw [header.result_eq]
      exact header.valid
  | topLevel => exact fun invalid => nomatch invalid

theorem Lowers.sound : function.Sound (last.interface signature?) := by
  obtain ⟨_, _, _, _, made, rfl, rfl, nodup, -⟩ := lowers.makes
  refine made.sound_after.function_sound ?_
  rw [made.grows.params_eq]
  exact nodup

theorem Lowers.strings_extend : state.strings <+: last.strings := by
  obtain ⟨_, _, _, _, made, rfl, -⟩ := lowers.makes
  exact made.grows.strings_extend

theorem Lowers.externals_subset : ∀ external ∈ state.externals, external ∈ last.externals := by
  obtain ⟨_, _, _, _, made, rfl, -⟩ := lowers.makes
  exact made.grows.externals_subset

theorem Lowers.violations_iff {known : Callee → Bool}
    (defined : ∀ name signature, signature? name = some signature → known ⟨.defined, name⟩ = true)
    (external : formatter ∈ last.externals → known ⟨.external, formatter.name⟩ = true) :
    function.violations known = [] ↔ ¬ SourceSpillsLate source := by
  obtain ⟨_, _, _, _, made, rfl, rfl, -⟩ := lowers.makes
  exact (made.finished.violations_iff made.sound defined external).trans made.shaped_after

end Results

/-- Functions of the source are lowered one after the other. -/
inductive LowersAll (signature? : Bytes → Option Signature) :
    State → List SourceFunction → List Function → State → Prop where
  /-- Nothing is left. -/
  | nil {state : State} : LowersAll signature? state [] [] state
  /-- One function is lowered and then the others. -/
  | cons {state middle last : State} {source : SourceFunction} {sources : List SourceFunction}
      {function : Function} {functions : List Function}
      (first : Lowers signature? state source function middle)
      (rest : LowersAll signature? middle sources functions last) :
      LowersAll signature? state (source :: sources) (function :: functions) last

namespace LowersAll

variable {sources : List SourceFunction} {functions : List Function}
  (lowers : LowersAll signature? state sources functions last)
include lowers

theorem strings_extend : state.strings <+: last.strings := by
  induction lowers with
  | nil => exact List.prefix_rfl
  | cons first rest ih => exact first.strings_extend.trans ih

theorem externals_subset : ∀ external ∈ state.externals, external ∈ last.externals := by
  induction lowers with
  | nil => exact fun _ member => member
  | cons first rest ih =>
      exact fun external member => ih external (first.externals_subset external member)

theorem names_eq : functions.map Function.name = sources.map SourceFunction.name := by
  induction lowers with
  | nil => rfl
  | cons first rest ih => rw [List.map_cons, List.map_cons, first.name_eq, ih]

/-- Each function is lowered from one of the source, and what it refers to is still there at the
end. -/
theorem aligned : List.Forall₂ (fun source function => ∃ before after : State,
    Lowers signature? before source function after ∧ after.strings <+: last.strings ∧
      ∀ external ∈ after.externals, external ∈ last.externals) sources functions := by
  induction lowers with
  | nil => exact .nil
  | cons first rest ih => exact .cons ⟨_, _, first, rest.strings_extend, rest.externals_subset⟩ ih

/-- Each function is lowered from one of the source. -/
theorem origin (member : function ∈ functions) : ∃ source ∈ sources, ∃ before after : State,
    Lowers signature? before source function after ∧ after.strings <+: last.strings ∧
      ∀ external ∈ after.externals, external ∈ last.externals := by
  have aligned := lowers.aligned
  clear lowers
  induction aligned with
  | nil => cases member
  | cons first rest ih =>
      rcases List.mem_cons.mp member with rfl | later
      · exact ⟨_, List.mem_cons_self, first⟩
      · obtain ⟨source, there, holds⟩ := ih later
        exact ⟨source, List.mem_cons_of_mem _ there, holds⟩

end LowersAll

section Bodies

variable {items : List Declared} {functions : List Function} {isEntry : Declared → Bool}
  {topLevel : Nat} {statements : List Stmt}

/-- One body is lowered, behind the statements at top level if it is that of the entry function. -/
theorem lowerBody_lowers {item : Declared}
    (header : ∃ params result, item.Header params result)
    (written : Stmt.AllWritten item.declaration.body)
    (statementsWritten : Stmt.AllWritten statements)
    (idle : state.Idle) (plainRoot : state.Plain signature? ScopeTable.root)
    (plainTop : isEntry item = true → state.Plain signature? topLevel) (nested : 0 < topLevel)
    (run : (if isEntry item then lowerFunction topLevel statements item
      else lowerFunction ScopeTable.root [] item) state = .ok (function, last)) :
    Lowers signature? state
        (sourceFunction (if isEntry item then some statements else none) item.declaration) function
        last ∧
      last.Idle ∧ last.Plain signature? ScopeTable.root ∧
      (isEntry item = false → state.Plain signature? topLevel → last.Plain signature? topLevel) ∧
      function.name = item.declaration.name.name ∧
      function.signature = item.function.signature := by
  obtain ⟨params, result, header⟩ := header
  have keeps : ∀ {limit : Nat} {tidy : Prop} {ended after : Draft},
      Makes signature? limit state item.function tidy ended after → after.state = last →
      function = after.state.function → function.name = item.declaration.name.name ∧
        function.signature = item.function.signature := by
    intro limit tidy ended after makes same isFunction
    refine ⟨?_, ?_⟩
    · rw [isFunction, makes.grows.name_eq]
      exact header.name
    · rw [isFunction, Function.signature, makes.grows.params_eq, makes.grows.result_eq]
      rfl
  cases entry : isEntry item with
  | true =>
      rw [entry, if_pos rfl] at run
      have lowers : Lowers signature? state (sourceFunction (some statements) item.declaration)
          function last := .own header idle (plainTop entry) statementsWritten written run
      obtain ⟨_, _, ended, after, -, makes, rfl, isFunction, -⟩ :=
        lowerFunction_makes header idle (plainTop entry) statementsWritten written run
      have below : ScopeTable.root < if statements = [] then state.nextContext else topLevel := by
        split
        · exact plainRoot.inside
        · exact nested
      exact ⟨lowers, makes.idle, makes.plain below plainRoot, fun other => absurd other (by decide),
        keeps makes rfl isFunction⟩
  | false =>
      rw [entry, if_neg (by decide)] at run
      have nothing : Stmt.AllWritten [] := trivial
      have lowers : Lowers signature? state (sourceFunction none item.declaration) function last :=
        .own header idle plainRoot nothing written run
      obtain ⟨_, _, ended, after, -, makes, rfl, isFunction, -⟩ :=
        lowerFunction_makes header idle plainRoot nothing written run
      rw [if_pos rfl] at makes
      exact ⟨lowers, makes.idle, makes.plain plainRoot.inside plainRoot,
        fun _ plain => makes.plain plain.inside plain, keeps makes rfl isFunction⟩

/-- Bodies are lowered one after the other. -/
theorem lowerBodies_lowers (isEntry : Declared → Bool) (topLevel : Nat)
    (headers : ∀ item ∈ items, ∃ params result, item.Header params result)
    (written : ∀ item ∈ items, Stmt.AllWritten item.declaration.body)
    (statementsWritten : Stmt.AllWritten statements)
    (single : items.Pairwise fun first second => isEntry first = true → isEntry second = false)
    (idle : state.Idle) (plainRoot : state.Plain signature? ScopeTable.root)
    (plainTop : (∃ item ∈ items, isEntry item = true) → state.Plain signature? topLevel)
    (nested : 0 < topLevel)
    (run : (items.mapM fun item => if isEntry item then lowerFunction topLevel statements item
      else lowerFunction ScopeTable.root [] item) state = .ok (functions, last)) :
    LowersAll signature? state
        (items.map fun item =>
          sourceFunction (if isEntry item then some statements else none) item.declaration)
        functions last ∧
      List.Forall₂ (fun item function => function.name = item.declaration.name.name ∧
        function.signature = item.function.signature) items functions := by
  induction items generalizing state functions with
  | nil =>
      obtain ⟨rfl, rfl⟩ := Prod.mk.inj (mapM_nil_ok.mp run)
      exact ⟨.nil, .nil⟩
  | cons item rest ih =>
      obtain ⟨function, middle, others, _, one, later, same⟩ := mapM_cons_ok.mp run
      obtain ⟨rfl, rfl⟩ := Prod.mk.inj same
      obtain ⟨alone, single⟩ := List.pairwise_cons.mp single
      obtain ⟨first, idle, plainRoot, keepsTop, heads⟩ :=
        lowerBody_lowers (headers item List.mem_cons_self) (written item List.mem_cons_self)
          statementsWritten idle plainRoot (fun entry => plainTop ⟨item, List.mem_cons_self, entry⟩)
          nested one
      have topLater : (∃ item ∈ rest, isEntry item = true) → middle.Plain signature? topLevel := by
        rintro ⟨other, member, entry⟩
        have plain := plainTop ⟨other, List.mem_cons_of_mem _ member, entry⟩
        cases isFirst : isEntry item with
        | true =>
            have never := alone other member isFirst
            rw [entry] at never
            cases never
        | false => exact keepsTop isFirst plain
      obtain ⟨all, headsLater⟩ :=
        ih (fun item member => headers item (List.mem_cons_of_mem _ member))
        (fun item member => written item (List.mem_cons_of_mem _ member)) single idle
        plainRoot topLater later
      exact ⟨.cons first all, .cons heads headsLater⟩

/-- Functions can be found like their declarations. -/
theorem find?_signature
    (aligned : List.Forall₂ (fun (item : Declared) (function : Function) =>
      function.name = item.declaration.name.name ∧ function.signature = item.function.signature)
      items functions) (name : Bytes) :
    (functions.find? fun function => function.name == name).map Function.signature =
      signatures items name := by
  unfold signatures
  induction aligned with
  | nil => rfl
  | @cons item function items functions heads rest ih =>
      rw [List.find?_cons, List.find?_cons, heads.1]
      cases item.declaration.name.name == name with
      | true => exact congrArg some heads.2
      | false => exact ih

end Bodies

section Programs

variable {options : EntryOptions} {stem : Bytes} {program : Program} {functions : List Function}

/-- Whether a declaration is that of the program's own entry function. -/
def isEntry (options : EntryOptions) (declaration : FunctionDecl) : Bool :=
  options.policy == .auto && declaration.name.name == options.entryName

/-- The state in which all functions have been declared and the scope at top level is open. -/
def State.openTopLevel (state : State) : State :=
  state.openScope ScopeTable.root .topLevel "<toplevel>"

theorem lowerItems_ok {entry : Bytes}
    (run : lowerItems options stem program state = .ok ((entry, functions), last)) :
    ∃ items middle, program.functions.mapM declareFunction state = .ok (items, middle) ∧
      (((items.any fun item => isEntry options item.declaration) = true ∧
          entry = options.entryName ∧
          (items.mapM fun item =>
            if isEntry options item.declaration then
              lowerFunction middle.nextContext program.statements item
            else lowerFunction ScopeTable.root [] item) middle.openTopLevel =
              .ok (functions, last)) ∨
        ((items.any fun item => isEntry options item.declaration) = false ∧
          entry = synthesizedEntry stem ∧
          (∀ declaration ∈ program.functions, declaration.name.name ≠ synthesizedEntry stem) ∧
          ∃ first others between,
            lowerTopLevel middle.nextContext (synthesizedEntry stem) program.statements
              middle.openTopLevel = .ok (first, between) ∧
            items.mapM (lowerFunction ScopeTable.root []) between = .ok (others, last) ∧
            functions = first :: others)) := by
  unfold lowerItems at run
  obtain ⟨items, middle, declares, run⟩ := bind_ok.mp run
  refine ⟨items, middle, declares, ?_⟩
  obtain ⟨_, _, opens, run⟩ := bind_ok.mp run
  obtain ⟨rfl, rfl⟩ := Prod.mk.inj (openScope_ok.mp opens).2
  cases own : items.any fun item => isEntry options item.declaration with
  | true =>
      rw [if_pos (by exact own)] at run
      obtain ⟨_, _, bodies, finished⟩ := bind_ok.mp run
      obtain ⟨results, rfl⟩ := Prod.mk.inj (pure_ok.mp finished)
      obtain ⟨rfl, rfl⟩ := Prod.mk.inj results
      exact .inl ⟨rfl, rfl, bodies⟩
  | false =>
      rw [if_neg (by rw [Bool.not_eq_true]; exact own)] at run
      cases reserved : program.functions.find? fun declaration =>
          declaration.name.name == synthesizedEntry stem with
      | some declaration =>
          simp only [reserved] at run
          exact absurd run refuse_ok
      | none =>
          simp only [reserved] at run
          obtain ⟨first, between, entryRun, run⟩ := bind_ok.mp run
          obtain ⟨others, _, bodies, finished⟩ := bind_ok.mp run
          obtain ⟨results, rfl⟩ := Prod.mk.inj (pure_ok.mp finished)
          obtain ⟨rfl, rfl⟩ := Prod.mk.inj results
          refine .inr ⟨rfl, rfl, fun declaration member => ?_, first, others, between,
            entryRun, bodies,
            rfl⟩
          simpa using List.find?_eq_none.mp reserved declaration member

/-- How the module of a program comes from its source. -/
structure Translates (options : EntryOptions) (stem : Bytes) (program : Program) (module : Module)
    (signature? : Bytes → Option Signature) (start last : State) : Prop where
  /-- All functions of the source are lowered. -/
  lowers : LowersAll signature? start (sourceFunctions options stem program) module.functions last
  /-- The string constants are those of the last state. -/
  strings_eq : module.strings = last.strings
  /-- The declarations are those of the last state. -/
  externals_eq : module.externals = last.externals
  /-- The names of functions are different. -/
  names_nodup : (module.functions.map Function.name).Nodup
  /-- What can be called is there. -/
  callable : ∀ name signature, signature? name = some signature →
    (module.function? name).map Function.signature = some signature
  /-- All functions can be called but the one made for the statements at top level. -/
  declared : ∀ function ∈ module.functions,
    (signature? function.name).isSome ∨ function.name = synthesizedEntry stem
  /-- There is an entry function. -/
  entry : (module.function? module.entry).isSome
  /-- At first nothing is declared. -/
  undeclared : start.externals = []

/-- A declared function can be called. -/
theorem signatures_isSome {items : List Declared} {item : Declared} (member : item ∈ items) :
    (signatures items item.declaration.name.name).isSome := by
  rw [signatures, Option.isSome_map, List.find?_isSome]
  exact ⟨item, member, by simp⟩

section Opened

variable {start middle : State} {items : List Declared} (declaring : Declaring start middle items)
  (undeclared : start.externals = [])
include declaring

theorem Declaring.root_lt : ScopeTable.root < middle.nextContext := by
  rw [declaring.nextContext_eq]
  exact Nat.zero_lt_one

include undeclared in
theorem Declaring.externals_eq : middle.openTopLevel.externals = [] := by
  obtain ⟨table, rfl⟩ := declaring.state_eq
  exact undeclared

include undeclared in
theorem Declaring.idle : middle.openTopLevel.Idle where
  wellScoped := declaring.wellScoped.openScope declaring.root_lt
  declared := by
    rw [declaring.externals_eq undeclared]
    exact fun _ member => (List.not_mem_nil member).elim

theorem Declaring.valid {name : Bytes} {signature : Signature}
    (found : signatures items name = some signature) : signature.result ≠ .invalid := by
  obtain ⟨item, there, rfl⟩ := Option.map_eq_some_iff.mp found
  obtain ⟨params, result, header⟩ := declaring.headers item (List.mem_of_find?_eq_some there)
  rw [header.signature]
  exact header.valid

theorem Declaring.plain {context : Nat}
    (isContext : context = ScopeTable.root ∨ context = middle.nextContext) :
    middle.openTopLevel.Plain (signatures items) context where
  inside := by
    have more : middle.openTopLevel.nextContext = middle.nextContext + 1 := by
      simp [State.openTopLevel, State.openScope, State.withTable, State.nextContext,
        ScopeTable.child]
    have root := declaring.root_lt
    rcases isContext with rfl | rfl
    · exact Nat.lt_of_lt_of_eq (Nat.lt_succ_of_lt root) more.symm
    · exact Nat.lt_of_lt_of_eq (Nat.lt_succ_self _) more.symm
  functions := by
    intro name
    rw [← declaring.functions]
    rcases isContext with rfl | rfl
    · exact congrFun (declaring.wellScoped.meaning?_openScope declaring.root_lt declaring.root_lt)
        name
    · exact congrFun (declaring.wellScoped.meaning?_nextContext declaring.root_lt) name
  valid := fun name signature => declaring.valid

/-- There is at most one entry function. -/
theorem Declaring.single (options : EntryOptions) : items.Pairwise fun first second =>
    isEntry options first.declaration = true → isEntry options second.declaration = false := by
  refine List.Pairwise.imp ?_ (List.pairwise_map.mp declaring.names)
  intro first second differ isFirst
  refine Bool.eq_false_iff.mpr fun isSecond => differ ?_
  simp only [isEntry, Bool.and_eq_true, beq_iff_eq] at isFirst isSecond
  exact isFirst.2.trans isSecond.2.symm

end Opened

theorem names_of_aligned {items : List Declared} {functions : List Function}
    (aligned : List.Forall₂ (fun (item : Declared) (function : Function) =>
      function.name = item.declaration.name.name ∧ function.signature = item.function.signature)
      items functions) :
    functions.map Function.name = items.map fun item => item.declaration.name.name := by
  induction aligned with
  | nil => rfl
  | cons heads rest ih => rw [List.map_cons, List.map_cons, heads.1, ih]

/-- **Every function of a built module is lowered from one function of the source.** -/
theorem lowerItems_translates {start : State} {entry : Bytes} (written : program.Written)
    (declaring : Declaring start start []) (undeclared : start.externals = [])
    (run : lowerItems options stem program start = .ok ((entry, functions), last)) :
    ∃ signature? opened,
      Translates options stem program
        { name := stem, functions, externals := last.externals, strings := last.strings, entry }
        signature? opened last := by
  obtain ⟨items, middle, declares, choice⟩ := lowerItems_ok run
  obtain ⟨declaring, declarations⟩ := declaring.declareAll declares
  rw [List.nil_append] at declaring
  have idle := declaring.idle undeclared
  have plainRoot := declaring.plain (.inl rfl)
  have plainTop := declaring.plain (.inr rfl)
  have bodies : ∀ item ∈ items, Stmt.AllWritten item.declaration.body := fun item member =>
    written.bodies _ (declarations ▸ List.mem_map_of_mem member)
  have nested : 0 < middle.nextContext := declaring.root_lt
  have anyEntry : (program.functions.any fun declaration => isEntry options declaration) =
      items.any fun item => isEntry options item.declaration := by
    rw [← declarations, List.any_map]
    rfl
  refine ⟨signatures items, middle.openTopLevel, ?_⟩
  rcases choice with ⟨own, rfl, bodiesRun⟩ | ⟨own, rfl, free, first, others, between, entryRun,
    bodiesRun, rfl⟩
  · obtain ⟨all, aligned⟩ := lowerBodies_lowers
      (fun item => isEntry options item.declaration) middle.nextContext declaring.headers bodies
      written.statements (declaring.single options) idle plainRoot (fun _ => plainTop)
        nested bodiesRun
    have found := find?_signature aligned
    refine ⟨?_, rfl, rfl, ?_, fun name signature known => (found name).trans known,
      fun function member => ?_, ?_, declaring.externals_eq undeclared⟩
    · have sources : sourceFunctions options stem program = items.map fun item =>
          sourceFunction (if isEntry options item.declaration then
            some program.statements else none) item.declaration := by
        unfold sourceFunctions
        rw [if_pos (by exact anyEntry.trans own), ← declarations, List.map_map]
        rfl
      rw [sources]
      exact all
    · exact names_of_aligned aligned ▸ declaring.names
    · have within : function.name ∈ functions.map Function.name := List.mem_map_of_mem member
      rw [names_of_aligned aligned] at within
      obtain ⟨item, there, same⟩ := List.mem_map.mp within
      exact .inl (same ▸ signatures_isSome there)
    · obtain ⟨item, member, entry⟩ := List.any_eq_true.mp own
      have same : item.declaration.name.name = options.entryName := by
        simp only [isEntry, Bool.and_eq_true, beq_iff_eq] at entry
        exact entry.2
      have there := signatures_isSome member
      rw [same, ← found, Option.isSome_map] at there
      exact there
  · have lowersEntry : Lowers (signatures items) middle.openTopLevel
        (topLevelFunction (synthesizedEntry stem) program.statements) first between :=
      .topLevel idle plainTop written.statements entryRun
    obtain ⟨_, _, -, -, makes, rfl, rfl⟩ :=
      lowerTopLevel_makes idle plainTop written.statements entryRun
    have noEntry : ∀ item ∈ items, isEntry options item.declaration = false := fun item member =>
      Bool.eq_false_iff.mpr (List.any_eq_false.mp own item member)
    obtain ⟨all, aligned⟩ :=
      lowerBodies_lowers (fun _ => false) middle.nextContext declaring.headers
      bodies written.statements (List.pairwise_of_forall fun _ _ never => absurd never (by decide))
      makes.idle (makes.plain nested plainRoot) (fun never => by simp at never) nested
      (by simpa using bodiesRun)
    have found := find?_signature aligned
    have name := lowersEntry.name_eq
    have apart : ∀ item ∈ items, item.declaration.name.name ≠ synthesizedEntry stem :=
      fun item member =>
      free _ (declarations ▸ List.mem_map_of_mem member)
    refine ⟨?_, rfl, rfl, ?_, fun other signature known => ?_, fun function member => ?_, ?_,
      declaring.externals_eq undeclared⟩
    · have sources : sourceFunctions options stem program =
          topLevelFunction (synthesizedEntry stem) program.statements :: items.map fun item =>
            sourceFunction none item.declaration := by
        unfold sourceFunctions
        rw [if_neg (by rw [Bool.not_eq_true]; exact anyEntry.trans own), ← declarations,
          List.map_map]
        refine congrArg (List.cons _) (List.map_congr_left fun item member => ?_)
        have never :
          (options.policy == .auto && item.declaration.name.name == options.entryName) = false :=
          noEntry item member
        simp only [Function.comp_apply, never, Bool.false_eq_true, if_false]
      rw [sources]
      exact .cons lowersEntry (by simpa using all)
    · rw [List.map_cons, names_of_aligned aligned, name, List.nodup_cons]
      refine ⟨fun member => ?_, declaring.names⟩
      obtain ⟨item, there, same⟩ := List.mem_map.mp member
      exact apart item there same
    · have differ : synthesizedEntry stem ≠ other := by
        rintro rfl
        obtain ⟨item, there, -⟩ := Option.map_eq_some_iff.mp known
        exact apart item (List.mem_of_find?_eq_some there) (by simpa using List.find?_some there)
      rw [← known, ← found, Module.function?, List.find?_cons_of_neg]
      simpa [name, topLevelFunction] using differ
    · rcases List.mem_cons.mp member with rfl | later
      · exact .inr name
      · have within : function.name ∈ others.map Function.name := List.mem_map_of_mem later
        rw [names_of_aligned aligned] at within
        obtain ⟨item, there, same⟩ := List.mem_map.mp within
        exact .inl (same ▸ signatures_isSome there)
    · rw [Module.function?, List.find?_cons_of_pos]
      · rfl
      · simp [name, topLevelFunction]

/-- Nothing is declared in the scopes of a file at first. -/
theorem declaring_ofFile {file : SourceFile} (tables : state.table = .ofFile file) :
    Declaring state state [] where
  state_eq := ⟨state.table, rfl⟩
  wellScoped := by
    have symbols : ∀ context record, state.table.record? context = some record →
        record.parent = none ∧ record.symbols = [] := by
      intro context record found
      rw [tables, ScopeTable.record?, ScopeTable.ofFile] at found
      obtain rfl := List.mem_singleton.mp (List.mem_of_getElem? found)
      exact ⟨rfl, rfl⟩
    refine ⟨fun context record parent found above => ?_,
      fun context record found index symbol there => ?_⟩
    · rw [(symbols context record found).1] at above
      cases above
    · rw [(symbols context record found).2] at there
      cases there
  nextContext_eq := by
    rw [State.nextContext, tables]
    rfl
  functions := by
    intro name
    rw [State.meaning?, ScopeTable.find?, tables]
    rfl
  headers := fun _ member => (List.not_mem_nil member).elim
  names := List.nodup_nil

/-- **The module of a program is translated from its source.** -/
theorem build_translates {file : SourceFile} {built : Built} (written : program.Written)
    (run : build options file program = .ok built) :
    ∃ signature? opened last,
      Translates options file.stem program built.module signature? opened last := by
  unfold build at run
  simp only [StateT.run, bind, Except.bind] at run
  split at run
  · cases run
  · rename_i outcome lowered
    obtain ⟨⟨entry, functions⟩, last⟩ := outcome
    cases run
    obtain ⟨signature?, opened, translates⟩ :=
      lowerItems_translates written (declaring_ofFile rfl) rfl lowered
    exact ⟨signature?, opened, last, translates⟩

namespace Translates

variable {module : Module} {start : State}
  (translates : Translates options stem program module signature? start last)
include translates

/-- **The functions of a built module are sound.** -/
theorem sound : module.Sound := by
  intro function member
  obtain ⟨source, -, before, after, lowers, texts, -⟩ :=
    translates.lowers.origin member
  refine lowers.sound.mono ?_ translates.callable
  rw [Module.interface, translates.strings_eq]
  exact texts.length_le

/-- **A built module is well formed unless parameters get their slots too late.** -/
theorem violations_iff : module.violations = [] ↔
    ∀ source ∈ sourceFunctions options stem program, ¬ SourceSpillsLate source := by
  have each : List.Forall₂ (fun source (function : Function) =>
      function.violations module.knows = [] ↔ ¬ SourceSpillsLate source)
      (sourceFunctions options stem program) module.functions := by
    refine translates.lowers.aligned.imp ?_
    rintro source function ⟨before, after, lowers, -, externals⟩
    refine lowers.violations_iff (fun name signature known => ?_) fun declared => ?_
    · have found := translates.callable name signature known
      simp only [Module.knows]
      rw [← Option.isSome_map, found]
      rfl
    · have there : formatter ∈ module.externals := translates.externals_eq ▸ externals _ declared
      simp only [Module.knows, Module.external?, List.find?_isSome]
      exact ⟨formatter, there, by simp⟩
  rw [Module.violations, translates.entry, Bool.or_true, if_pos rfl, List.nil_append,
    List.flatMap_eq_nil_iff]
  generalize sourceFunctions options stem program = sources at each
  generalize module.functions = functions at each
  induction each with
  | nil => simp
  | cons first rest ih => simp only [List.forall_mem_cons, first, ih]

end Translates

end Programs

end ScriptCompiler.Lowering
