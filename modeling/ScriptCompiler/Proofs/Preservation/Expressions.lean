import ScriptCompiler.Proofs.Preservation.Instructions

/-!
# Running the code of expressions

The code of an expression computes what the expression evaluates to.  It goes on behind itself with
a frame that holds the value and mirrors the variables of the source, with the output of the source;
where the source traps it traps, and where the source is unfinished it is.
-/

namespace ScriptCompiler.Lowering

open IR Semantics Bounded Build

theorem State.grows_emit {state : State} {instr : Instr} (straight : instr.targets = []) :
    state.Grows (state.emit instr) := by
  rw [State.emit_eq_put straight]
  exact State.grows_put _ _

theorem State.grows_load (state : State) (place : Place) : state.Grows (state.load place) := by
  rw [State.load, State.define_eq_put rfl]
  exact State.grows_put _ _

namespace Simulation

variable {Double : Type} {sim : Simulation Double} {before middle after : Draft}
    {state last : State}
  {context : Nat} {contexts : List Nat} {layers : List Layer} {frame next : Frame Double}
  {scopes : List (Scope Double)} {store : Store Double} {trace : Trace Double} {value : Value}
  {datum : Datum Double}

variable (sim) in
/-- A draft, a frame and the scopes of the source stand side by side. -/
structure Stands (draft : Draft) (context : Nat) (contexts : List Nat) (layers : List Layer)
    (frame : Frame Double) (scopes : List (Scope Double)) : Prop where
  /-- More can be lowered. -/
  ready : draft.Ready sim.signature? context
  /-- The current block takes instructions. -/
  takes : draft.state.isOpen = true
  /-- Names stand for slots. -/
  binds : draft.state.Binds sim.signature? (context :: contexts) layers
  /-- The slots hold the variables. -/
  mirrors : frame.Mirrors layers scopes

namespace Stands

theorem owned (stands : sim.Stands before context contexts layers frame scopes) :
    (before.state.function.block? before.state.current.id).isSome := stands.ready.sound.owned

/-- Behind an expression, a frame that mirrors the scopes stands beside them. -/
theorem behind (stands : sim.Stands before context contexts layers frame scopes)
    (evaluates : Evaluates sim.signature? context before after value)
    {scopes' : List (Scope Double)} (mirrors : next.Mirrors layers scopes') :
    sim.Stands after context contexts layers next scopes' where
  ready := evaluates.ready
  takes := evaluates.takes
  binds := stands.binds.mono (fun other _ => congrFun evaluates.meanings other)
    evaluates.course.grows.nextId_le
  mirrors := mirrors

/-- A name that is used keeps its meaning. -/
theorem use (stands : sim.Stands before context contexts layers frame scopes) (symbol : Symbol)
    (name : Bytes) :
    sim.Stands ⟨before.state.use symbol name, before.known⟩ context contexts layers frame
      scopes where
  ready := ((Course.refl stands.ready).use symbol name).ready
  takes := stands.takes
  binds := stands.binds.mono
    (fun other _ => congrFun (stands.ready.wellScoped.meaning?_use symbol name) other)
      (Nat.le_refl _)
  mirrors := stands.mirrors

/-- The slot of a variable that is found is the one that the layers give it. -/
theorem denote_of_find? (stands : sim.Stands before context contexts layers frame scopes)
    {name : Bytes} {found : Symbol} {place : Place}
    (finds : before.state.table.find? context name = some found) (kind : found.kind ≠ .function)
    (held : before.state.slot? found = some place) :
    denote sim.signature? layers name = some (.variable place) := by
  obtain ⟨other, there, means⟩ := stands.ready.wellScoped.variable_of_find? finds kind
  obtain rfl := Option.some.inj (there.symm.trans held)
  rw [← stands.binds.meaning?_eq, means]

end Stands

variable (sim) in
/-- What a result of the source asks of a run: it goes on behind the code, with a frame that keeps
what was there, mirrors the scopes and holds the result. -/
def Yields {α : Type} (before last : State) (frame : Frame Double) (layers : List Layer)
    (holds : Frame Double → α → Prop) (result : α × Store Double) (onward : Bounded Double) :
    Prop :=
  ∃ next, onward = sim.point last next result.2.trace ∧ frame.Kept before.nextId next ∧
    next.Mirrors layers result.2.scopes ∧ holds next result.1

/-- What is kept on the way is kept in the end. -/
theorem Yields.behind {α : Type} {base : State} {holds : Frame Double → α → Prop}
    {result : α × Store Double} {onward : Bounded Double} (kept : frame.Kept base.nextId next)
    (ids : base.nextId ≤ state.nextId)
    (yields : sim.Yields state last next layers holds result onward) :
    sim.Yields base last frame layers holds result onward := by
  obtain ⟨later, isOnward, keptLater, mirrors, held⟩ := yields
  exact ⟨later, isOnward, kept.trans keptLater ids, mirrors, held⟩

variable (sim) in
/-- Values can be read as data of their types. -/
def ReadsAll (values : List Value) (frame : Frame Double) (data : List (Datum Double)) : Prop :=
  List.Forall₂ (fun value datum =>
    value.datum? sim.machine sim.module.strings frame = some datum ∧ datum.type = value.type)
      values data

theorem ReadsAll.mapM_eq {values : List Value} {data : List (Datum Double)}
    (reads : sim.ReadsAll values frame data) :
    values.mapM (Value.datum? sim.machine sim.module.strings frame) = some data ∧
      data.map Datum.type = values.map Value.type := by
  induction reads with
  | nil => exact ⟨rfl, rfl⟩
  | cons first rest ih => exact ⟨by simp [first.1, ih.1], by simp [first.2, ih.2]⟩

section Instructions

/-- A string constant can be read wherever it has been added. -/
theorem datum?_text {content : Bytes} (frame : Frame Double)
    (fits : (state.addText content).strings <+: sim.final.strings) :
    (Value.string (state.textIndex content)).datum? sim.machine sim.module.strings frame =
      some (.string content) := by
  obtain ⟨member, isIndex⟩ := textIndex_of_prefix (fits.trans sim.strings)
  rw [Value.datum?, isIndex, List.getElem?_idxOf member]
  rfl

theorem point_use (symbol : Symbol) (name : Bytes) :
    sim.point (state.use symbol name) frame trace = sim.point state frame trace :=
  sim.point_congr rfl rfl

theorem point_addLiteral (literal : Literal) :
    sim.point (state.addLiteral literal) frame trace = sim.point state frame trace := by
  cases literal <;> exact sim.point_congr rfl rfl

/-- A literal can be read as its value. -/
theorem reads_literal (frame : Frame Double) {literal : Literal}
    (grows : (state.addLiteral literal).Grows sim.final) :
    sim.Reads frame (literalValue state literal) (some (literalDatum sim.machine literal)) := by
  intro _
  cases literal with
  | int value => exact ⟨_, rfl, rfl, rfl⟩
  | float value => exact ⟨_, rfl, rfl, rfl⟩
  | bool value => exact ⟨_, rfl, rfl, rfl⟩
  | string content => exact ⟨_, rfl, datum?_text frame grows.strings_extend, rfl⟩

variable (owned : (state.function.block? state.current.id).isSome)
include owned

/-- A value is printed in the format of its type. -/
theorem point_print {format : Bytes} (formats : printFormat? value.type = some format)
    (grows : (state.print format value).Grows sim.final)
    (found : value.datum? sim.machine sim.module.strings frame = some datum)
    (typed : datum.type = value.type) :
    sim.point state frame trace =
      sim.point (state.print format value) frame (trace ++ [⟨formatOf datum, datum⟩]) := by
  obtain rfl : format = formatOf datum := by
    rw [← typed, printFormat?_type] at formats
    exact (Option.some.inj formats).symm
  let texted := state.addFormatter.addText (formatOf datum)
  let output : Instr := .call none ⟨.external, formatter.name⟩
    [.string (state.addFormatter.textIndex (formatOf datum)), value]
  have put : state.print (formatOf datum) value = texted.put output 1 := rfl
  have action : output.action sim.machine sim.module.strings frame =
      .print none ⟨formatOf datum, datum⟩ := by
    simp only [output, Instr.action, List.mapM_cons, List.mapM_nil, found,
      datum?_text frame grows.strings_extend]
    rfl
  have there : (texted.function.block? texted.current.id).isSome := owned
  rw [put] at grows ⊢
  calc sim.point state frame trace = sim.point texted frame trace := (sim.point_congr rfl rfl).symm
    _ = sim.running (output :: sim.rest (texted.put output 1)) frame trace :=
        sim.point_put there grows
    _ = sim.point (texted.put output 1) frame (trace ++ [⟨formatOf datum, datum⟩]) :=
        sim.running_print action

variable {α : Type} {asked : α → Bounded Double → Prop} {name : Bytes} {signature : Signature}
  {values : List Value} {data : List (Datum Double)}

/-- A function that can be called meets a call of the source. -/
theorem meets_invoke (known : sim.signature? name = some signature)
    (reads : sim.ReadsAll values frame data) (types : values.map Value.type = signature.params)
    (grows : (state.invoke name signature.result values).Grows sim.final)
    {onward : Option (Datum Double) × Trace Double → Run Double α}
    (later : ∀ result next, frame.Kept state.nextId next → next.slots = frame.slots →
      sim.Reads next (.temp ⟨state.nextId, signature.result⟩) result.1 →
      Meets sim.depth sim.rounds (onward result)
        (sim.point (state.invoke name signature.result values) next result.2) asked) :
    Meets sim.depth sim.rounds ((sim.call name data trace).bind onward)
      (sim.point state frame trace) asked := by
  obtain ⟨isData, dataTypes⟩ := reads.mapM_eq
  obtain ⟨-, meets⟩ := sim.calls name signature known
  have action : ∀ dest, (Instr.call dest ⟨.defined, name⟩ values).action sim.machine
      sim.module.strings frame = .invoke dest name data := by
    intro dest
    simp only [Instr.action, isData]
  by_cases void : signature.result = .void
  · have put : state.invoke name signature.result values =
        state.put (.call none ⟨.defined, name⟩ values) 1 := by
      rw [State.invoke, if_pos (by simpa using void)]
      rfl
    rw [put] at grows later
    rw [sim.point_put owned grows, sim.running_invoke (action none)]
    refine (meets data (dataTypes.trans types) trace).call (grows_call sim.module)
      sim.grows_received ?_
    intro result _
    exact later result frame (.refl _ _) rfl fun notVoid => absurd void notVoid
  · have put : state.invoke name signature.result values =
        state.put (.call (some ⟨state.nextId, signature.result⟩) ⟨.defined, name⟩ values) 1 := by
      rw [State.invoke, if_neg (by simpa using void)]
      rfl
    rw [put] at grows later
    rw [sim.point_put owned grows, sim.running_invoke (action _)]
    refine (meets data (dataTypes.trans types) trace).call (grows_call sim.module)
      sim.grows_received ?_
    rintro ⟨_ | datum, behind⟩ returned
    · exact absurd returned void
    · have gains : sim.Gains state frame (frame.define ⟨state.nextId, signature.result⟩ datum)
          (.temp ⟨state.nextId, signature.result⟩) datum := sim.gains_define rfl returned
      exact later (some datum, behind) _ gains.kept gains.slots gains.reads

/-- The content of a slot is loaded. -/
theorem meets_load {place : Place} {run : Run Double α}
    (holds : frame.slots place.id = some (some datum)) (typed : datum.type = place.type)
    (grows : (state.load place).Grows sim.final)
    (later : ∀ next, sim.Gains state frame next (.temp ⟨state.nextId, place.type⟩) datum →
      Meets sim.depth sim.rounds run (sim.point (state.load place) next trace) asked) :
    Meets sim.depth sim.rounds run (sim.point state frame trace) asked := by
  rw [sim.point_load owned holds grows]
  exact later _ (sim.gains_define rfl typed)

/-- A logical operator goes on with its right operand if it needs it. -/
theorem point_branchLogical {conjunction flag : Bool} {first : Value} {rest done : BlockName}
    (found : first.datum? sim.machine sim.module.strings frame = some (.bool flag))
    (grows : (state.branchLogical conjunction first rest done).Grows sim.final) :
    sim.point state frame trace =
      sim.entering (if flag == conjunction then rest else done).id frame trace := by
  cases conjunction with
  | true =>
      rw [sim.point_branch owned found grows]
      cases flag <;> rfl
  | false =>
      rw [sim.point_branch owned found grows]
      cases flag <;> rfl

end Instructions

/-- A value is stored in the slot of a variable. -/
theorem meets_assign {base : State} {name : Bytes} {place : Place}
    (owned : (state.function.block? state.current.id).isSome)
    (denotes : denote sim.signature? layers name = some (.variable place)) {other : State}
    (binds : other.Binds sim.signature? contexts layers)
    (mirrors : next.Mirrors layers store.scopes)
    (found : value.datum? sim.machine sim.module.strings next = some datum)
    (typed : datum.type = value.type) (types : value.type = place.type)
    (grows : (state.emit (.store (.slot place) value)).Grows sim.final)
    (kept : frame.Kept base.nextId next) :
    Meets sim.depth sim.rounds (.done (some datum, store.write name datum))
      (sim.point state next store.trace)
      (sim.Yields base (state.emit (.store (.slot place) value)) frame layers
        fun next => sim.Reads next value) := by
  obtain ⟨old, -, holds, -⟩ := mirrors.read denotes
  rw [sim.point_store owned (by rw [holds]; rfl) found grows]
  exact .done ⟨next.fill place datum, rfl, kept.trans (.fill _ _ _ _) (Nat.le_refl _),
    mirrors.write denotes binds.nodup binds.names (typed.trans types),
    fun _ => ⟨datum, rfl, by rw [datum?_fill, found], typed⟩⟩

theorem exists_bool_of_type (isBool : datum.type = .bool) : ∃ flag, datum = .bool flag := by
  cases datum with
  | bool flag => exact ⟨flag, rfl⟩
  | int | float | string => cases isBool

/-- A new slot hides no variable. -/
theorem mirrors_keep {place : Place} (mirrors : frame.Mirrors layers scopes)
    (isNew : place.id ∉ slotIds layers) (datum : Datum Double) :
    ((frame.make place).fill place datum).Mirrors layers scopes := by
  refine mirrors.congr fun id member => ?_
  have differ : id ≠ place.id := fun same => isNew (same ▸ member)
  rw [slots_fill_of_ne _ _ differ, slots_make_of_ne _ differ]

/-- Where control comes to a block that is entered while it is empty, the content of a slot is
loaded. -/
theorem meets_loaded {base jumped : State} {done : BlockName} {place : Place}
    (below : done.id < jumped.function.nextBlock) (empty : jumped.function.code done.id = [])
    (owned : (jumped.function.block? done.id).isSome)
    (grows : ((jumped.enter done).load place).Grows sim.final)
    (ids : base.nextId ≤ jumped.nextId) (kept : frame.Kept base.nextId next)
    (mirrors : next.Mirrors layers store.scopes) (holds : next.slots place.id = some (some datum))
    (typed : datum.type = place.type) :
    Meets sim.depth sim.rounds (.done (some datum, store)) (sim.entering done.id next store.trace)
      (sim.Yields base ((jumped.enter done).load place) frame layers
        fun next => sim.Reads next (.temp ⟨(jumped.enter done).nextId, place.type⟩)) := by
  have enterGrows := (State.grows_load _ _).trans grows
  refine sim.meets_entering (Nat.lt_of_lt_of_le below enterGrows.nextBlock_le) empty ?_
  refine meets_load owned holds typed grows fun last gains => ?_
  exact .done ⟨last, rfl, kept.trans gains.kept ids, gains.mirrors mirrors, gains.reads⟩

/-- A logical operator whose slot holds the left operand: the right operand is evaluated and stored
if it is needed, and then the slot is loaded. -/
theorem meets_logical {operator : Token} {first second : Value} {flag : Bool} {place : Place}
    {kept entered : Draft} (ready : kept.Ready sim.signature? context)
    (opened : kept.state.isOpen = true) (usable : kept.Usable sim.signature? first)
    (isTruth : first.type = .bool)
    (found : first.datum? sim.machine sim.module.strings frame = some (.bool flag))
    (filled : kept.Filled place) (isBool : place.type = .bool) (apart : place.id ∉ slotIds layers)
    (holds : frame.slots place.id = some (some (.bool flag)))
    (mirrors : frame.Mirrors layers store.scopes)
    (isEntered : entered.state = ((kept.makeLogical operator).state.branchLogical
      (logicalName operator).1 first (kept.state.logicalRest operator)
      (kept.state.logicalDone operator)).enter (kept.state.logicalRest operator))
    (begins : Course sim.signature? context kept entered)
    (behind : kept.Fresh entered (kept.state.logicalDone operator))
    (rightDone : Evaluates sim.signature? context entered after second)
    (secondTruth : second.type = .bool)
    {ending : State}
    (isEnding : ((after.state.emit (.store (.slot place) second)).jump
      (kept.state.logicalDone operator)).enter (kept.state.logicalDone operator) = ending)
    (grows : (ending.load place).Grows sim.final)
    {right : Run Double (Option (Datum Double) × Store Double)}
    (meets : Meets sim.depth sim.rounds right (sim.point entered.state frame store.trace)
      (sim.Yields entered.state after.state frame layers fun next => sim.Reads next second)) :
    Meets sim.depth sim.rounds
      (if flag == (operator.kind == .bothAnd) then
        right.bind fun (second, store) => truth second fun flag => .done (some (.bool flag), store)
      else .done (some (.bool flag), store))
      (sim.point kept.state frame store.trace)
      (sim.Yields kept.state (ending.load place) frame layers
        fun next => sim.Reads next (.temp ⟨ending.nextId, place.type⟩)) := by
  subst isEnding
  obtain ⟨made, restFresh, -⟩ := Prepares.makeLogical operator ready
  have forks := Course.forkLogical operator first ready opened isTruth usable
  obtain ⟨stored, jumped, there⟩ :=
    rightDone.leaveLogical ready filled isBool behind begins secondTruth
  have jumpGrows := (State.grows_enter _).trans ((State.grows_load _ _).trans grows)
  have storeGrows := jumped.grows.trans jumpGrows
  have forkGrows := (State.grows_enter _).trans
    (isEntered ▸ (rightDone.course.trans stored).grows.trans storeGrows)
  have ids := (begins.trans (rightDone.course.trans (stored.trans jumped))).grows.nextId_le
  have owned := (jumped.ready.sound.enter there.below).owned
  rw [← sim.point_congr made.current (congrFun made.code_eq _),
    point_branchLogical made.course.ready.sound.owned found forkGrows, logicalName_fst]
  split
  · refine sim.meets_entering (Nat.lt_of_lt_of_le (restFresh.course forks).below
      forkGrows.nextBlock_le) (restFresh.course forks).empty ?_
    rw [← isEntered]
    refine meets.bind ?_
    rintro ⟨computed, later⟩ _ ⟨next, rfl, keptNext, mirrorsNext, reads⟩
    obtain ⟨datum, rfl, secondFound, typed⟩ := reads (by simp [secondTruth])
    obtain ⟨flag', rfl⟩ := exists_bool_of_type (typed.trans secondTruth)
    have slotThere := keptNext.slots place.id (by rw [holds]; rfl)
    dsimp only [truth]
    rw [sim.point_store rightDone.ready.sound.owned slotThere secondFound storeGrows,
      sim.point_jump stored.ready.sound.owned jumpGrows]
    refine meets_loaded there.below there.empty owned grows ids ?_ ?_ (slots_fill_self _ _ _)
      isBool.symm
    · exact (Frame.Kept.refl _ frame).trans (keptNext.trans (.fill _ _ _ _) (Nat.le_refl _))
        begins.grows.nextId_le
    · exact mirrorsNext.congr fun id member =>
        slots_fill_of_ne _ _ fun same => apart (same ▸ member)
  · exact meets_loaded there.below there.empty owned grows ids (.refl _ _) mirrors holds isBool.symm

section Recursion

variable (sim) in
/-- The code of an expression computes what the expression evaluates to, wherever it is lowered. -/
def Computes (expression : Expr) : Prop :=
  ∀ {context : Nat} {contexts : List Nat} {layers : List Layer} {before : Draft} {last : State}
    {value : Value} {frame : Frame Double} {store : Store Double},
    sim.Stands before context contexts layers frame store.scopes →
    lowerExpr context expression before.state = .ok (value, last) → last.Grows sim.final →
    Meets sim.depth sim.rounds (evalExpr sim.machine sim.declared sim.call expression store)
      (sim.point before.state frame store.trace)
      (sim.Yields before.state last frame layers fun next => sim.Reads next value)

-- The equations of the function are made here, once, for all the cases below.
attribute [local simp] evalExpr in
theorem literal_computes (token : Token) (content : Literal) :
    sim.Computes (.literal token content) := by
  intro context contexts layers before last value frame store stands run grows
  rw [lowerExpr] at run
  obtain ⟨rfl, rfl⟩ := Prod.mk.inj (lowerLiteral_ok.mp run)
  rw [evalExpr]
  exact .done ⟨frame, (point_addLiteral content).symm, .refl _ _, stands.mirrors,
    reads_literal frame grows⟩

theorem variable_computes (identifier : Identifier) : sim.Computes (.variable identifier) := by
  intro context contexts layers before last value frame store stands run grows
  obtain ⟨found, place, finds, kind, held, rfl, rfl⟩ := lowerExpr_variable_ok run
  obtain ⟨datum, isDatum, holds, typed⟩ :=
    stands.mirrors.read (stands.denote_of_find? finds kind held)
  rw [evalExpr, isDatum, ← point_use found identifier.name]
  exact meets_load (stands.use found identifier.name).owned holds typed grows fun next gains =>
    .done ⟨next, rfl, gains.kept, gains.mirrors stands.mirrors, gains.reads⟩

theorem group_computes {opening closing : Token} {inner : Expr} (computes : sim.Computes inner) :
    sim.Computes (.group opening inner closing) := by
  intro context contexts layers before last value frame store stands run grows
  rw [lowerExpr] at run
  rw [evalExpr]
  exact computes stands run grows

section Operators

variable {operator : Token} {left right : Expr}

theorem binary_computes (leftWritten : left.Written) (rightWritten : right.Written)
    (leftComputes : sim.Computes left) (rightComputes : sim.Computes right) :
    sim.Computes (.binary left operator right) := by
  intro context contexts layers before last value frame store stands run grows
  obtain ⟨first, _, second, _, leftRun, rightRun, applied⟩ := lowerExpr_binary_ok run
  obtain ⟨middle, rfl, leftDone⟩ :=
    lowerExpr_evaluates left leftWritten stands.ready stands.takes leftRun
  obtain ⟨after, rfl, rightDone⟩ :=
    lowerExpr_evaluates right rightWritten leftDone.ready leftDone.takes rightRun
  have applies := Evaluates.binary (.refl rightDone.ready) rightDone.takes rfl
    (fun notVoid => (leftDone.usable notVoid).mono rightDone.course leftDone.ready)
    rightDone.usable applied
  have rightGrows := applies.course.grows.trans grows
  rw [evalExpr]
  refine (leftComputes stands leftRun (rightDone.course.grows.trans rightGrows)).bind ?_
  rintro ⟨leftValue, store⟩ _ ⟨frame', rfl, kept, mirrors, leftReads⟩
  refine (rightComputes (stands.behind leftDone mirrors) rightRun rightGrows).bind ?_
  rintro ⟨rightValue, store⟩ _ ⟨frame'', rfl, kept', mirrors, rightReads⟩
  refine sim.meets_binary rightDone.ready.sound.owned applied grows
    (leftReads.kept leftDone.ready.sound leftDone.usable kept') rightReads
    fun datum next gains => ?_
  have kept := (kept.trans kept' leftDone.course.grows.nextId_le).trans gains.kept
    (leftDone.course.trans rightDone.course).grows.nextId_le
  exact .done ⟨next, rfl, kept, gains.mirrors mirrors, gains.reads⟩

theorem logical_computes (leftWritten : left.Written) (rightWritten : right.Written)
    (leftComputes : sim.Computes left) (rightComputes : sim.Computes right) :
    sim.Computes (.logical left operator right) := by
  intro context contexts layers before last value frame store stands run grows
  obtain ⟨first, _, leftRun, isTruth, logical⟩ := lowerExpr_logical_ok run
  obtain ⟨middle, rfl, leftDone⟩ :=
    lowerExpr_evaluates left leftWritten stands.ready stands.takes leftRun
  obtain ⟨place, second, _, isPlace, rightRun, secondTruth, ending, isEnding, rfl, rfl⟩ :=
    lowerLogical_ok logical
  have usable := leftDone.usable (by simp [isTruth])
  obtain ⟨keeps, opened, filled⟩ := (Course.refl leftDone.ready).keep leftDone.takes
    (middle.state.logicalSlot operator) rfl usable isTruth
  have usableKept := usable.mono keeps leftDone.ready
  obtain ⟨begins, meanings, behind, enters⟩ :=
    Course.beginLogical operator first keeps.ready opened isTruth usableKept
  obtain ⟨after, rfl, rightDone⟩ :=
    lowerExpr_evaluates right rightWritten begins.ready enters rightRun
  obtain ⟨stored, jumped, -⟩ :=
    rightDone.leaveLogical keeps.ready filled rfl behind begins secondTruth
  subst isPlace isEnding
  have jumpGrows := (State.grows_enter _).trans ((State.grows_load _ _).trans grows)
  have afterGrows := (stored.trans jumped).grows.trans jumpGrows
  have keepGrows := (begins.trans rightDone.course).grows.trans afterGrows
  rw [evalExpr]
  refine (leftComputes stands leftRun (keeps.grows.trans keepGrows)).bind ?_
  rintro ⟨computed, store⟩ _ ⟨frame', rfl, kept, mirrors, reads⟩
  obtain ⟨datum, rfl, found, typed⟩ := reads (by simp [isTruth])
  obtain ⟨flag, rfl⟩ := exists_bool_of_type (typed.trans isTruth)
  dsimp only [truth]
  rw [sim.point_keep leftDone.ready.sound.owned found keepGrows]
  have standsLeft := stands.behind leftDone mirrors
  have isNew : (middle.state.logicalSlot operator).id ∉ slotIds layers := fun member =>
    Nat.lt_irrefl _ (standsLeft.binds.below _ member)
  have held := mirrors_keep mirrors isNew (.bool flag)
  have entered : sim.Stands (middle.beginLogical operator first) context contexts layers _
      store.scopes :=
    { ready := begins.ready, takes := enters, mirrors := held
      binds := standsLeft.binds.mono (fun other _ => congrFun meanings other)
        (keeps.trans begins).grows.nextId_le }
  have keptLeft := kept.trans (.keep _ _ (middle.state.logicalSlot operator) (.bool flag))
    (Nat.le_refl _)
  refine (meets_logical keeps.ready opened usableKept isTruth
    (by rw [datum?_fill, datum?_make, found]) filled rfl isNew (slots_fill_self _ _ _) held rfl
    begins behind rightDone secondTruth rfl grows
    (rightComputes entered rightRun afterGrows)).imp fun result onward => ?_
  exact Yields.behind keptLeft (leftDone.course.trans keeps).grows.nextId_le

theorem unary_computes (operand : Expr) (written : operand.Written)
    (computes : sim.Computes operand) : sim.Computes (.unary operator operand) := by
  intro context contexts layers before last value frame store stands run grows
  obtain ⟨read, _, operandRun, applied⟩ := lowerExpr_unary_ok run
  obtain ⟨middle, rfl, operandDone⟩ :=
    lowerExpr_evaluates operand written stands.ready stands.takes operandRun
  have applies := Evaluates.unary (.refl operandDone.ready) operandDone.takes rfl operandDone.usable
    applied
  rw [evalExpr]
  refine (computes stands operandRun (applies.course.grows.trans grows)).bind ?_
  rintro ⟨computed, store⟩ _ ⟨frame', rfl, kept, mirrors, reads⟩
  refine sim.meets_unary operandDone.ready.sound.owned applied grows reads
    fun datum next gains => ?_
  exact .done ⟨next, rfl, kept.trans gains.kept operandDone.course.grows.nextId_le,
    gains.mirrors mirrors, gains.reads⟩

end Operators

theorem assignment_computes {target : Identifier} {operator : Token} (expression : Expr)
    (written : expression.Written) (computes : sim.Computes expression) :
    sim.Computes (.assignment target operator expression) := by
  intro context contexts layers before last value frame store stands run grows
  obtain ⟨found, place, assigned, _, finds, kind, held, valueRun, stored⟩ :=
    lowerExpr_assignment_ok run
  have used := stands.use found target.name
  have denotes := stands.denote_of_find? finds kind held
  obtain ⟨middle, rfl, valueDone⟩ :=
    lowerExpr_evaluates expression written used.ready used.takes valueRun
  have course := ((Course.refl stands.ready).use found target.name).trans valueDone.course
  have filled := (stands.ready.filled_of_find? finds kind held).mono
    (fun _ => course.grows.results_subset stands.ready.sound.numbered) course.held_subset
  rw [evalExpr, ← point_use found target.name, compoundArithmetic_eq]
  rcases stored with ⟨plain, types, rfl, rfl⟩ | ⟨arithmetic, _, compound, applied, types, rfl⟩
  · refine (computes used valueRun ((State.grows_emit rfl).trans grows)).bind ?_
    rintro ⟨computed, store⟩ _ ⟨next, rfl, kept, mirrors, reads⟩
    obtain ⟨datum, rfl, found, typed⟩ := reads (types ▸ filled.isValue.1)
    simp only [present, plain]
    exact meets_assign valueDone.ready.sound.owned denotes stands.binds mirrors found typed types
      grows kept
  · have loads := Evaluates.load (.refl valueDone.ready) valueDone.takes rfl filled
    have combines := Evaluates.binary (.refl loads.ready) loads.takes rfl loads.usable
      (fun notVoid => (valueDone.usable notVoid).mono loads.course valueDone.ready) applied
    have binaryGrows := (State.grows_emit rfl).trans grows
    have loadGrows := combines.course.grows.trans binaryGrows
    refine (computes used valueRun (loads.course.grows.trans loadGrows)).bind ?_
    rintro ⟨computed, store⟩ _ ⟨frame', rfl, kept, mirrors, reads⟩
    obtain ⟨old, isOld, holds, oldType⟩ := mirrors.read denotes
    obtain ⟨datum, rfl, -⟩ := id reads ((applyBinary_ok applied).1 ▸ filled.isValue.1)
    simp only [compound, isOld]
    refine meets_load valueDone.ready.sound.owned holds oldType loadGrows fun frame'' gains => ?_
    change Meets _ _ (present (some old) fun held => present (some datum) fun assigned =>
      (operate sim.machine arithmetic held assigned).run store.trace fun result =>
        .done (some result, store.write target.name result)) _ _
    refine sim.meets_binary loads.ready.sound.owned applied binaryGrows gains.reads
      (reads.kept valueDone.ready.sound valueDone.usable gains.kept) fun result next gains' => ?_
    have kept := (kept.trans gains.kept valueDone.course.grows.nextId_le).trans gains'.kept
      (valueDone.course.trans loads.course).grows.nextId_le
    exact meets_assign combines.ready.sound.owned denotes stands.binds
      (gains'.mirrors (gains.mirrors mirrors)) gains'.found gains'.typed types grows kept

section Calls

variable {arguments : List Expr} (written : Expr.AllWritten arguments)
  (computes : ∀ argument ∈ arguments, sim.Computes argument)
include written computes

/-- The code of arguments computes what the arguments evaluate to. -/
theorem lowerArguments_meets {name : Bytes} {number : Nat} {types : List BasicType}
    {values : List Value} (stands : sim.Stands before context contexts layers frame store.scopes)
    (count : arguments.length = types.length)
    (run : lowerArguments context name number types arguments before.state = .ok (values, last))
    (grows : last.Grows sim.final) :
    Meets sim.depth sim.rounds (evalArguments sim.machine sim.declared sim.call arguments store)
      (sim.point before.state frame store.trace)
      (sim.Yields before.state last frame layers fun next => sim.ReadsAll values next) := by
  induction arguments generalizing number types before frame store values with
  | nil =>
      obtain rfl : types = [] := List.length_eq_zero_iff.mp count.symm
      obtain ⟨rfl, rfl⟩ := Prod.mk.inj (pure_ok.mp (by rwa [lowerArguments] at run; exact nofun))
      rw [evalArguments]
      exact .done ⟨frame, rfl, .refl _ _, stands.mirrors, .nil⟩
  | cons argument rest ih =>
      cases types with
      | nil => simp at count
      | cons wanted types =>
          obtain ⟨value, _, others, valueRun, typed, notVoid, othersRun, rfl⟩ :=
            lowerArguments_cons_ok run
          have fewer : rest.length = types.length := by simpa using count
          obtain ⟨middle, rfl, valueDone⟩ :=
            lowerExpr_evaluates argument written.1 stands.ready stands.takes valueRun
          obtain ⟨after, rfl, othersDone, -⟩ := lowerArguments_evaluates rest written.2
            valueDone.ready valueDone.takes fewer othersRun
          rw [evalArguments]
          refine (computes argument List.mem_cons_self stands valueRun
            (othersDone.course.grows.trans grows)).bind ?_
          rintro ⟨computed, store⟩ _ ⟨frame', rfl, kept, mirrors, reads⟩
          obtain ⟨datum, rfl, -⟩ := id reads notVoid
          dsimp only [present]
          refine (ih written.2 (fun other member => computes other (List.mem_cons_of_mem _ member))
            (stands.behind valueDone mirrors) fewer othersRun).bind ?_
          rintro ⟨data, store⟩ _ ⟨next, rfl, kept', mirrors, readsOthers⟩
          obtain ⟨_, ⟨⟩, found, isTyped⟩ :=
            reads.kept valueDone.ready.sound valueDone.usable kept' notVoid
          exact .done ⟨next, rfl, kept.trans kept' valueDone.course.grows.nextId_le, mirrors,
            .cons ⟨found, isTyped⟩ readsOthers⟩

/-- A function is called with the values of the arguments, or a value is printed. -/
theorem call_computes {callee : Identifier} {closing : Token} :
    sim.Computes (.call callee arguments closing) := by
  intro context contexts layers before last value frame store stands run grows
  rcases lowerExpr_call_ok run with
    ⟨found, signature, values, _, finds, typed, count, valuesRun, rfl, rfl⟩ |
    ⟨argument, printed, _, format, finds, isPrint, rfl, printedRun, formats, rfl, rfl⟩
  · have used := stands.use found callee.name
    obtain ⟨named, means⟩ := stands.ready.wellScoped.function_of_find? finds typed
    have known := signature?_of_denote ((stands.binds.meaning?_eq _).symm.trans means)
    obtain ⟨middle, rfl, valuesDone, types⟩ :=
      lowerArguments_evaluates arguments written used.ready used.takes count valuesRun
    obtain ⟨-, valid⟩ := stands.ready.callable _ _ means
    have invokes :=
      Evaluates.invoke (.refl valuesDone.course.ready) valuesDone.takes rfl known valid
      types valuesDone.usable
    rw [named] at grows ⊢
    rw [evalExpr, ← point_use found callee.name]
    refine (lowerArguments_meets written computes used count valuesRun
      (invokes.course.grows.trans grows)).bind ?_
    rintro ⟨data, store⟩ _ ⟨frame', rfl, kept, mirrors, reads⟩
    simp only [(sim.calls _ _ known).1, if_true]
    refine meets_invoke valuesDone.course.ready.sound.owned known reads types grows
      fun result next kept' slots reads' => ?_
    exact .done ⟨next, rfl, kept.trans kept' valuesDone.course.grows.nextId_le,
      mirrors.congr fun id _ => congrFun slots id, reads'⟩
  · have means : before.state.meaning? context callee.name = none := by
      rw [State.meaning?, finds, Option.map_none]
    have unknown := signature?_of_denote_none ((stands.binds.meaning?_eq _).symm.trans means)
    have isOutput : callee.name = outputName := isPrint
    have undeclared : sim.declared callee.name = false :=
      isOutput ▸ sim.undeclared (isOutput ▸ unknown)
    obtain ⟨middle, rfl, printedDone⟩ :=
      lowerExpr_evaluates argument written.1 stands.ready stands.takes printedRun
    have prints := Evaluates.print (.refl printedDone.ready) printedDone.takes rfl formats
      printedDone.usable
    rw [evalExpr, evalArguments, Run.bind_assoc]
    refine (computes argument List.mem_cons_self stands printedRun
      (prints.course.grows.trans grows)).bind ?_
    rintro ⟨computed, store⟩ _ ⟨next, rfl, kept, mirrors, reads⟩
    obtain ⟨datum, rfl, found, typed⟩ := reads (isValue_of_printFormat? formats).1
    have spelled : (callee.name == outputName) = true := beq_iff_eq.mpr isOutput
    simp only [present, evalArguments, Run.bind_done, undeclared, spelled, Bool.false_eq_true,
      if_false, if_true]
    rw [point_print printedDone.ready.sound.owned formats grows found typed]
    exact .done ⟨next, rfl, kept, mirrors, fun notVoid => absurd rfl notVoid⟩

end Calls

mutual

/-- **The code of an expression computes what the expression evaluates to.** -/
theorem lowerExpr_meets : ∀ expression : Expr, expression.Written → sim.Computes expression
  | .literal token content, _ => literal_computes token content
  | .variable identifier, _ => variable_computes identifier
  | .group _ inner _, written => group_computes (lowerExpr_meets inner written)
  | .binary left _ right, written =>
      binary_computes written.1 written.2 (lowerExpr_meets left written.1)
        (lowerExpr_meets right written.2)
  | .logical left _ right, written =>
      logical_computes written.1 written.2 (lowerExpr_meets left written.1)
        (lowerExpr_meets right written.2)
  | .unary _ operand, written => unary_computes operand written (lowerExpr_meets operand written)
  | .assignment _ _ expression, written =>
      assignment_computes expression written (lowerExpr_meets expression written)
  | .call _ arguments _, written => call_computes written (lowerExprs_meet arguments written)

/-- So does the code of each of some expressions. -/
theorem lowerExprs_meet : ∀ expressions : List Expr, Expr.AllWritten expressions →
    ∀ expression ∈ expressions, sim.Computes expression
  | [], _ => List.forall_mem_nil _
  | expression :: rest, written => List.forall_mem_cons.mpr
      ⟨lowerExpr_meets expression written.1, lowerExprs_meet rest written.2⟩

end

end Recursion

end Simulation

end ScriptCompiler.Lowering
