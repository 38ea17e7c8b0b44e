import ScriptCompiler.Proofs.Lowering.Finished
import ScriptCompiler.Proofs.Semantics.Source

/-!
# The course of lowering a program

All functions of a program are declared before the first body is lowered, so in the outermost scope
every name stands for the function of that name.  Lowering one body after the other, the state
between them stays idle, and each function of the module is made from one function of the source
(`build_lowers`).
-/

namespace ScriptCompiler.Lowering

open IR Build

variable {signature? : Bytes → Option Signature} {context : Nat} {before middle after : Draft}
  {state last : State} {function : Function}

/-- From an empty function to a finished one.  The contexts below a limit are as they were. -/
structure Makes (signature? : Bytes → Option Signature) (limit : Nat) (state : State)
    (empty : Function) (tidy : Prop) (ended after : Draft) : Prop where
  /-- There are moves. -/
  moves : Moves signature? False (Draft.begin state empty) ended
  /-- The code is sound. -/
  sound : ended.Sound signature?
  /-- The scopes are well formed. -/
  wellScoped : ended.state.WellScoped
  /-- Whether a terminator stands before the end of a block. -/
  shaped : ended.state.Shaped ↔ tidy
  /-- Then every block is closed. -/
  finished : Finished signature? ended after
  /-- Scopes are added. -/
  nextContext_le : state.nextContext ≤ ended.state.nextContext
  /-- Outer contexts are unchanged. -/
  outer : ∀ other < limit, ended.state.meaning? other = state.meaning? other

namespace Makes

variable {limit : Nat} {empty : Function} {tidy : Prop} {ended : Draft}
  (makes : Makes signature? limit state empty tidy ended after)
include makes

theorem grows : (state.begin empty).Grows after.state :=
  makes.moves.grows.trans makes.finished.moves.grows

theorem sound_after : after.Sound signature? := makes.sound.moves makes.finished.moves

theorem meaning?_eq : after.state.meaning? = ended.state.meaning? := by
  obtain ⟨-, table, slots⟩ := ended.state.finish_same
  rw [makes.finished.state_eq]
  exact State.meaning?_congr table slots

theorem idle : after.state.Idle where
  wellScoped := by
    obtain ⟨-, table, slots⟩ := ended.state.finish_same
    rw [makes.finished.state_eq]
    exact makes.wellScoped.congr table slots
  declared := makes.sound_after.declared

theorem nextContext_le_after : state.nextContext ≤ after.state.nextContext := by
  refine makes.nextContext_le.trans (Nat.le_of_eq ?_)
  rw [makes.finished.state_eq, State.nextContext, State.nextContext, ended.state.finish_same.2.1]

/-- Below the limit, functions stay callable. -/
theorem plain {other : Nat} (below : other < limit) (plain : state.Plain signature? other) :
    after.state.Plain signature? other where
  inside := Nat.lt_of_lt_of_le plain.inside makes.nextContext_le_after
  functions := by
    intro name
    rw [makes.meaning?_eq, makes.outer other below]
    exact plain.functions name
  valid := plain.valid

theorem shaped_after : after.state.Shaped ↔ tidy := by
  refine ⟨fun shaped => makes.shaped.mp (shaped.of_grows makes.finished.moves.grows),
    fun holds => ?_⟩
  exact (makes.shaped.mpr holds).moves makes.sound makes.finished.moves

end Makes

section Functions

/-- What the declaration of a function says: the names and types of its parameters, and the type of
its result. -/
structure Declared.Header (declared : Declared) (params : List (Bytes × BasicType))
    (result : BasicType) : Prop where
  /-- Parameters have values. -/
  aligned : List.Forall₂ (fun param typed => typed.1 = param.name.name ∧
    BasicType.ofName? param.type.name = some typed.2 ∧ typed.2 ≠ .void)
    declared.declaration.params params
  /-- The result has the named type, or none. -/
  named : (declared.declaration.result.map fun type => BasicType.ofName? type.name).getD
    (some .void) = some result
  /-- The function is still empty. -/
  function_eq : declared.function = .ofSignature declared.declaration.name.name params result

theorem params_ofSignature (name : Bytes) (params : List (Bytes × BasicType)) (result : BasicType) :
    (Function.ofSignature name params result).params.map Place.type = params.map Prod.snd ∧
      (Function.ofSignature name params result).params.map Place.name = params.map Prod.fst := by
  have places : (Function.ofSignature name params result).params =
      params.mapIdx fun index param => ⟨index, param.1, param.2⟩ := rfl
  constructor
  · refine List.ext_getElem? fun index => ?_
    simp only [places, List.getElem?_map, List.getElem?_mapIdx, Option.map_map]
    rfl
  · refine List.ext_getElem? fun index => ?_
    simp only [places, List.getElem?_map, List.getElem?_mapIdx, Option.map_map]
    rfl

namespace Declared.Header

variable {declared : Declared} {params : List (Bytes × BasicType)} {result : BasicType}
  (header : declared.Header params result)
include header

theorem signature : declared.function.signature = ⟨params.map Prod.snd, result, false⟩ := by
  rw [header.function_eq, Function.signature, (params_ofSignature _ params result).1]
  rfl

theorem name : declared.function.name = declared.declaration.name.name := by
  rw [header.function_eq]
  rfl

theorem valid : result ≠ .invalid := by
  have found := header.named
  cases given : declared.declaration.result with
  | none =>
      rw [given] at found
      cases found
      decide
  | some identifier =>
      rw [given] at found
      exact ofName?_ne_invalid found

theorem names : declared.function.params.map Place.name =
    declared.declaration.params.map fun param => param.name.name := by
  rw [header.function_eq, (params_ofSignature _ params result).2]
  have aligned := header.aligned
  clear header
  generalize declared.declaration.params = written at aligned
  induction aligned with
  | nil => rfl
  | cons first rest ih => simp [first.1, ih]

theorem length_eq : declared.declaration.params.length = declared.function.params.length := by
  have same := congrArg List.length header.names
  simpa using same.symm

theorem isValue {place : Place} (member : place ∈ declared.function.params) :
    place.type.IsValue := by
  have within : place.type ∈ declared.function.params.map Place.type := List.mem_map_of_mem member
  rw [header.function_eq, (params_ofSignature _ params result).1] at within
  obtain ⟨typed, there, isType⟩ := List.mem_map.mp within
  have aligned := header.aligned
  clear header within
  generalize declared.declaration.params = written at aligned
  rw [← isType]
  induction aligned with
  | nil => cases there
  | cons first rest ih =>
      rcases List.mem_cons.mp there with rfl | later
      · exact ⟨first.2.2, ofName?_ne_invalid first.2.1⟩
      · exact ih later

theorem spills :
    Spills declared.function (declared.declaration.params.zip declared.function.params) :=
  fun _ member => ⟨(List.of_mem_zip member).2, header.isValue (List.of_mem_zip member).2⟩

end Declared.Header

variable {declared : Declared} {params : List (Bytes × BasicType)} {result : BasicType}

theorem lowerStmts_none_course {statements : List Stmt} (written : Stmt.AllWritten statements)
    (ready : before.Ready signature? context) (takes : before.state.isOpen = true)
    (run : lowerStmts context none statements before.state = .ok ((), last)) :
    ∃ after : Draft, after.state = last ∧ Course signature? context before after ∧
      after.state.isOpen = !Stmt.closesAll statements := by
  obtain ⟨after, same, course, isOpen_eq⟩ := lowerStmts_course statements written ready
    (by simp [Draft.Loops]) run
  refine ⟨after, same, course, isOpen_eq.trans ?_⟩
  cases statements with
  | nil => exact takes
  | cons first rest => rfl

/-- Parameters get their slots in an open block unless the statements before close it. -/
theorem spillParams_spilled {params : List (Param × Place)} {scope : Nat} {closes : Bool}
    (ready : before.Ready signature? scope) (isOpen : before.state.isOpen = !closes)
    (spills : Spills before.state.function params)
    (run : spillParams scope params before.state = .ok ((), last)) :
    ∃ after : Draft, after.state = last ∧ Spilled signature? scope before after ∧
      (¬ (closes = true ∧ params ≠ []) → Moves signature? True before after) ∧
      ((closes = true ∧ params ≠ []) → ¬ after.state.Shaped) := by
  cases closes with
  | false =>
      obtain ⟨after, same, course, -⟩ := spillParams_course ready isOpen spills run
      exact ⟨after, same, course.spilled, fun _ => course.moves,
        fun both => absurd both.1 (by decide)⟩
  | true =>
      by_cases given : params = []
      · subst given
        obtain ⟨-, rfl⟩ := Prod.mk.inj (pure_ok.mp run)
        exact ⟨before, rfl, (Course.refl ready).spilled, fun _ => .refl,
          fun both => absurd rfl both.2⟩
      · obtain ⟨after, same, spilled, early, -⟩ := spillParams_closed given ready isOpen spills run
        exact ⟨after, same, spilled, fun not => absurd ⟨rfl, given⟩ not, fun _ => early⟩

/-- The draft in which the scope of a function has been opened. -/
def Draft.openFunction (draft : Draft) (parent : Nat) (declared : Declared) : Draft :=
  ⟨draft.state.openScope parent .function declared.declaration.name.name, draft.known⟩

/-- The parts of lowering a function: the statements before it, its parameters and its body. -/
structure Parts (signature? : Bytes → Option Signature) (parent : Nat) (prologue : List Stmt)
    (declared : Declared) (state : State) (middle spilled ended : Draft) : Prop where
  /-- The function starts empty. -/
  begins : (Draft.begin state declared.function).Ready signature? parent
  /-- Its entry block is open. -/
  opens : (Draft.begin state declared.function).state.isOpen = true
  /-- First come the statements before it. -/
  prologueRun : lowerStmts parent none prologue (state.begin declared.function) =
    .ok ((), middle.state)
  /-- They are a course. -/
  prologueCourse : Course signature? parent (Draft.begin state declared.function) middle
  /-- They may close the block that they end in. -/
  isOpen_eq : middle.state.isOpen = !Stmt.closesAll prologue
  /-- Then come the parameters. -/
  spillRun : spillParams middle.state.nextContext
    (declared.declaration.params.zip declared.function.params)
    (middle.openFunction parent declared).state = .ok ((), spilled.state)
  /-- They get their slots. -/
  spills : Spilled signature? middle.state.nextContext (middle.openFunction parent declared) spilled
  /-- Last comes the body. -/
  bodyRun : lowerStmts middle.state.nextContext none declared.declaration.body spilled.state =
    .ok ((), ended.state)
  /-- It is a course. -/
  bodyCourse : Course signature? middle.state.nextContext spilled ended

/-- Whether the first parameter of a function gets its slot behind a terminator. -/
def SpillsLate (prologue : List Stmt) (params : List Param) : Prop :=
  Stmt.closesAll prologue = true ∧ params ≠ []

/-- **A function is made from its declaration and the statements before it.**  A terminator stands
before the end of a block exactly if these statements end in one and there are parameters. -/
theorem lowerFunction_makes {parent : Nat} {prologue : List Stmt}
    (header : declared.Header params result) (idle : state.Idle)
    (plain : state.Plain signature? parent) (prologueWritten : Stmt.AllWritten prologue)
    (bodyWritten : Stmt.AllWritten declared.declaration.body)
    (run : lowerFunction parent prologue declared state = .ok (function, last)) :
    ∃ middle spilled ended after : Draft,
      Parts signature? parent prologue declared state middle spilled ended ∧
      Makes signature? (if prologue = [] then state.nextContext else parent) state declared.function
        (¬ SpillsLate prologue declared.declaration.params) ended after ∧
      after.state = last ∧ function = after.state.function ∧
      (declared.function.params.map Place.name).Nodup := by
  obtain ⟨_, _, _, prologueRun, spillRun, bodyRun, rfl, rfl⟩ := lowerFunction_ok run
  have begins : (Draft.begin state declared.function).Ready signature? parent := by
    rw [header.function_eq]
    exact Draft.begin_ready idle plain
  have opens : (Draft.begin state declared.function).state.isOpen = true := by
    rw [header.function_eq]
    exact Draft.begin_isOpen
  have shaped : (Draft.begin state declared.function).state.Shaped := by
    rw [header.function_eq]
    exact State.begin_shaped
  obtain ⟨middle, rfl, prologueCourse, isOpen⟩ :=
    lowerStmts_none_course prologueWritten begins opens prologueRun
  have inside : (middle.openFunction parent declared).Ready signature? middle.state.nextContext :=
    prologueCourse.ready.openScope
  have entries : declared.declaration.params.zip declared.function.params ≠ [] ↔
      declared.declaration.params ≠ [] := by
    have same := header.length_eq
    simp only [ne_eq, ← List.length_eq_zero_iff, List.length_zip]
    omega
  have spills : Spills (middle.openFunction parent declared).state.function
      (declared.declaration.params.zip declared.function.params) := by
    have same : (middle.openFunction parent declared).state.function.params =
        declared.function.params := prologueCourse.grows.params_eq
    simpa only [Spills, same] using header.spills
  obtain ⟨spilled, rfl, spillDone, tidy, early⟩ :=
    spillParams_spilled inside isOpen spills spillRun
  have spilledReady := spillDone.ready
  obtain ⟨ended, rfl, bodyCourse, -⟩ := lowerStmts_course declared.declaration.body bodyWritten
    spilledReady (by simp [Draft.Loops]) bodyRun
  have parts : Parts signature? parent prologue declared state middle spilled ended :=
    ⟨begins, opens, prologueRun, prologueCourse, isOpen, spillRun, spillDone, bodyRun, bodyCourse⟩
  have note : ∀ {tidy : Prop}, Move signature? tidy middle (middle.openFunction parent declared) :=
    .note _ (Nat.le_refl _) rfl rfl List.prefix_rfl (.inl rfl)
  have valid : ended.state.function.result ≠ .invalid := by
    rw [bodyCourse.grows.result_eq, spillDone.moves.grows.result_eq]
    refine (prologueCourse.grows.result_eq.trans ?_).trans_ne header.valid
    rw [header.function_eq]
    rfl
  obtain ⟨after, finished⟩ := bodyCourse.ready.sound.finish valid
  have wholeMoves : Moves signature? False (Draft.begin state declared.function) ended :=
    Relation.ReflTransGen.trans (Relation.ReflTransGen.trans
      ((prologueCourse.moves.mono False.elim).tail note) spillDone.moves)
      (bodyCourse.moves.mono False.elim)
  have contexts : middle.state.nextContext ≤ ended.state.nextContext := by
    refine Nat.le_trans ?_ (spillDone.nextContext_le.trans bodyCourse.nextContext_le)
    simp [Draft.openFunction, State.openScope, State.withTable, State.nextContext, ScopeTable.child]
  have inner : ∀ other < middle.state.nextContext,
      ended.state.meaning? other = middle.state.meaning? other := fun other below =>
    ((bodyCourse.outer other below).trans (spillDone.outer other below)).trans
      (prologueCourse.ready.wellScoped.meaning?_openScope prologueCourse.ready.inside below)
  refine ⟨middle, spilled, ended, after, parts,
    ⟨wholeMoves, bodyCourse.ready.sound, bodyCourse.ready.wellScoped, ?_, finished,
      prologueCourse.nextContext_le.trans contexts, fun other below => ?_⟩,
    finished.state_eq, by rw [finished.state_eq], ?_⟩
  · refine ⟨fun shaped both => ?_, fun on_time => ?_⟩
    · exact early ⟨both.1, entries.mpr both.2⟩ (shaped.of_grows bodyCourse.grows)
    · have spillTidy := tidy fun both => on_time ⟨both.1, entries.mp both.2⟩
      have allTidy : Moves signature? True (Draft.begin state declared.function) ended :=
        Relation.ReflTransGen.trans (Relation.ReflTransGen.trans
          (prologueCourse.moves.tail note) spillTidy) bodyCourse.moves
      exact shaped.moves begins.sound allTidy
  · split at below
    · rename_i nothing
      subst nothing
      obtain ⟨-, same⟩ := Prod.mk.inj (pure_ok.mp prologueRun)
      rw [inner other (by rw [same]; exact below), same]
      exact congrFun (State.meaning?_congr rfl rfl) other
    · rw [inner other (Nat.lt_trans below prologueCourse.ready.inside),
        prologueCourse.outer other below]
      exact congrFun (State.meaning?_congr rfl rfl) other
  · have nodup := (spillParams_names inside.inside spillRun).1
    rw [header.names]
    have firsts := List.map_fst_zip (Nat.le_of_eq header.length_eq)
    rwa [← firsts, List.map_map]

/-- A function is made from the statements at top level. -/
theorem lowerTopLevel_makes {name : Bytes} {statements : List Stmt} (idle : state.Idle)
    (plain : state.Plain signature? context) (written : Stmt.AllWritten statements)
    (run : lowerTopLevel context name statements state = .ok (function, last)) :
    ∃ ended after : Draft,
      lowerStmts context none statements (state.begin (.ofSignature name [] .int)) =
        .ok ((), ended.state) ∧
      Course signature? context (Draft.begin state (.ofSignature name [] .int)) ended ∧
      Makes signature? context state (.ofSignature name [] .int) True ended after ∧
      after.state = last ∧ function = after.state.function := by
  obtain ⟨_, bodyRun, rfl, rfl⟩ := lowerTopLevel_ok run
  obtain ⟨ended, rfl, course, -⟩ := lowerStmts_none_course written
    (Draft.begin_ready idle plain) Draft.begin_isOpen bodyRun
  have valid : ended.state.function.result ≠ .invalid := by
    rw [course.grows.result_eq]
    exact fun invalid => nomatch invalid
  obtain ⟨after, finished⟩ := course.ready.sound.finish valid
  refine ⟨ended, after, bodyRun, course,
    ⟨course.moves.mono False.elim, course.ready.sound, course.ready.wellScoped, ?_, finished,
      course.nextContext_le, fun other below => ?_⟩, finished.state_eq, by rw [finished.state_eq]⟩
  · exact ⟨fun _ => trivial, fun _ =>
      State.begin_shaped.moves (Draft.begin_sound idle) course.moves⟩
  · rw [course.outer other below]
    exact congrFun (State.meaning?_congr rfl rfl) other

end Functions

section Declarations

/-- The symbol of a function before its declaration. -/
def functionSymbol (declaration : FunctionDecl) (signature : Signature) : Symbol :=
  { name := declaration.name.name, kind := .function, type := some (.ofSignature signature),
    position := declaration.name.first }

theorem valueTypes_ok {written : List Param} {params : List (Bytes × BasicType)}
    (run : (written.mapM fun param : Param => do
      return (param.name.name, ← valueType context param.type)) state = .ok (params, last)) :
    List.Forall₂ (fun param typed => typed.1 = param.name.name ∧
      BasicType.ofName? param.type.name = some typed.2 ∧ typed.2 ≠ .void) written params ∧
      last = state := by
  induction written generalizing params state with
  | nil =>
      obtain ⟨rfl, rfl⟩ := Prod.mk.inj (mapM_nil_ok.mp run)
      exact ⟨.nil, rfl⟩
  | cons param rest ih =>
      obtain ⟨typed, middle, others, _, first, later, same⟩ := mapM_cons_ok.mp run
      obtain ⟨rfl, rfl⟩ := Prod.mk.inj same
      obtain ⟨type, _, typeRun, isTyped⟩ := bind_ok.mp first
      obtain ⟨rfl, rfl⟩ := Prod.mk.inj (pure_ok.mp isTyped)
      obtain ⟨found, notVoid, rfl⟩ := valueType_ok typeRun
      obtain ⟨aligned, rfl⟩ := ih later
      exact ⟨.cons ⟨rfl, found, notVoid⟩ aligned, rfl⟩

theorem declareFunction_ok {declaration : FunctionDecl} {declared : Declared}
    (run : declareFunction declaration state = .ok (declared, last)) :
    declared.declaration = declaration ∧ (∃ params result, declared.Header params result) ∧
      ∃ owned table, state.table.declare ScopeTable.root
        (functionSymbol declaration declared.function.signature) = .ok (owned, table) ∧
        last = state.withTable table := by
  unfold declareFunction at run
  obtain ⟨params, middle, paramsRun, rest⟩ := bind_ok.mp run
  obtain ⟨aligned, rfl⟩ := valueTypes_ok paramsRun
  obtain ⟨result, named, rest⟩ : ∃ result,
      (declaration.result.map fun type => BasicType.ofName? type.name).getD (some .void) =
        some result ∧
      (onTable ScopeTable.root (fun table => table.declare ScopeTable.root
          (functionSymbol declaration { params := params.map Prod.snd, result })) >>= fun _ =>
        (pure ⟨declaration, .ofSignature declaration.name.name params result⟩ : Build Declared))
        middle = .ok (declared, last) := by
    cases given : declaration.result with
    | none =>
        rw [given] at rest
        obtain ⟨result, _, isVoid, declares⟩ := bind_ok.mp rest
        obtain ⟨rfl, rfl⟩ := Prod.mk.inj (pure_ok.mp isVoid)
        exact ⟨.void, rfl, declares⟩
    | some identifier =>
        rw [given] at rest
        obtain ⟨result, _, resultRun, declares⟩ := bind_ok.mp rest
        obtain ⟨found, rfl⟩ := resultType_ok resultRun
        exact ⟨result, found, declares⟩
  obtain ⟨owned, _, declares, finished⟩ := bind_ok.mp rest
  obtain ⟨rfl, rfl⟩ := Prod.mk.inj (pure_ok.mp finished)
  obtain ⟨-, table, declares, rfl⟩ := onTable_ok.mp declares
  have header : Declared.Header
      ⟨declaration, .ofSignature declaration.name.name params result⟩ params result :=
    ⟨aligned, named, rfl⟩
  refine ⟨rfl, ⟨params, result, header⟩, owned, table, ?_, rfl⟩
  rw [header.signature]
  exact declares

/-- The signatures of declared functions. -/
def signatures (items : List Declared) (name : Bytes) : Option Signature :=
  (items.find? fun item => item.declaration.name.name == name).map fun item =>
    item.function.signature

/-- The state in which some functions and nothing else have been declared. -/
structure Declaring (start state : State) (items : List Declared) : Prop where
  /-- Nothing but scopes has changed. -/
  state_eq : ∃ table, state = start.withTable table
  /-- The scopes are well formed. -/
  wellScoped : state.WellScoped
  /-- There is only the outermost scope. -/
  nextContext_eq : state.nextContext = 1
  /-- In it, names stand for the functions. -/
  functions : ∀ name, state.meaning? ScopeTable.root name = (signatures items name).map .function
  /-- The functions have the parts that their declarations say. -/
  headers : ∀ item ∈ items, ∃ params result, item.Header params result
  /-- Their names are different. -/
  names : (items.map fun item => item.declaration.name.name).Nodup

/-- In the outermost scope a name that is not declared there stands for nothing. -/
theorem State.WellScoped.meaning?_root (wellScoped : state.WellScoped) {name : Bytes}
    (absent : state.table.local? ScopeTable.root name = none) :
    state.meaning? ScopeTable.root name = none := by
  have outermost : state.table.parent? ScopeTable.root = none := by
    refine Option.eq_none_iff_forall_ne_some.mpr fun parent above => ?_
    obtain ⟨record, found, isParent⟩ := Option.bind_eq_some_iff.mp above
    exact absurd (wellScoped.ordered _ record parent found isParent) (Nat.not_lt_zero parent)
  rw [State.meaning?, ScopeTable.find?_eq wellScoped.ordered, absent, outermost]
  rfl

theorem Declaring.declare {start : State} {items : List Declared} {declaration : FunctionDecl}
    {declared : Declared} (declaring : Declaring start state items)
    (run : declareFunction declaration state = .ok (declared, last)) :
    Declaring start last (items ++ [declared]) := by
  obtain ⟨rfl, header, owned, table, declares, rfl⟩ := declareFunction_ok run
  have inside : ScopeTable.root < state.nextContext := by
    rw [declaring.nextContext_eq]
    exact Nat.zero_lt_one
  have both : Declares state (state.withTable table) ScopeTable.root
        (functionSymbol declared.declaration declared.function.signature) owned ∧
      (state.withTable table).meaning owned = .function declared.function.signature :=
    Declares.of_signature inside rfl rfl declares rfl
  obtain ⟨declares', meaning⟩ := both
  obtain ⟨absent, -, -⟩ := ScopeTable.declare_ok declares
  have new : signatures items declared.declaration.name.name = none := by
    have nothing := declaring.wellScoped.meaning?_root absent
    exact Option.map_eq_none_iff.mp ((declaring.functions _).symm.trans nothing)
  have fresh : ∀ item ∈ items, item.declaration.name.name ≠ declared.declaration.name.name := by
    intro item member same
    have found := List.find?_eq_none.mp (Option.map_eq_none_iff.mp new) item member
    simp [same] at found
  refine ⟨?_, declares'.wellScoped declaring.wellScoped,
    declares'.nextContext_eq.trans declaring.nextContext_eq, fun name => ?_,
      fun item member => ?_, ?_⟩
  · obtain ⟨earlier, rfl⟩ := declaring.state_eq
    exact ⟨table, rfl⟩
  · rw [declares'.meaning?_self declaring.wellScoped, meaning, declaring.functions]
    simp only [signatures, List.find?_append, Option.map_or]
    by_cases same : name = declared.declaration.name.name
    · subst same
      have missing : (items.find? fun item =>
          item.declaration.name.name == declared.declaration.name.name) = none :=
        Option.map_eq_none_iff.mp new
      simp [functionSymbol, missing]
    · have differ : ¬ declared.declaration.name.name = name := fun equal => same equal.symm
      simp [functionSymbol, same, differ]
  · rcases List.mem_append.mp member with earlier | isLast
    · exact declaring.headers item earlier
    · exact List.mem_singleton.mp isLast ▸ header
  · rw [List.map_append, List.nodup_append]
    refine ⟨declaring.names, by simp, ?_⟩
    intro name earlier other isLast
    obtain ⟨item, member, rfl⟩ := List.mem_map.mp earlier
    obtain rfl := List.mem_singleton.mp isLast
    exact fresh item member

theorem Declaring.declareAll {start : State} {earlier items : List Declared}
    {declarations : List FunctionDecl} (declaring : Declaring start state earlier)
    (run : declarations.mapM declareFunction state = .ok (items, last)) :
    Declaring start last (earlier ++ items) ∧ items.map Declared.declaration = declarations := by
  induction declarations generalizing state earlier items with
  | nil =>
      obtain ⟨rfl, rfl⟩ := Prod.mk.inj (mapM_nil_ok.mp run)
      exact ⟨by rwa [List.append_nil], rfl⟩
  | cons declaration rest ih =>
      obtain ⟨declared, middle, others, _, first, later, same⟩ := mapM_cons_ok.mp run
      obtain ⟨rfl, rfl⟩ := Prod.mk.inj same
      obtain ⟨all, declarations⟩ := ih (declaring.declare first) later
      refine ⟨by simpa using all, ?_⟩
      rw [List.map_cons, declarations, (declareFunction_ok first).1]

end Declarations

end ScriptCompiler.Lowering
