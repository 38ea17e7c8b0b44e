import ScriptCompiler.Proofs.Preservation.Expressions

/-!
# Running the code of statements

The code of a statement does what the statement does.  Behind a statement that ends normally the
code goes on behind itself, a break and a continue lead to the blocks of the innermost loop, and a
return ends the run.  Rounds of a loop are compared one by one: each takes a block at least.
-/

namespace ScriptCompiler

open Statics in
/-- Only a declaration adds a name to its scope. -/
theorem Statics.Admits.own_eq {result : BasicType} {inLoop : Bool} {outer : Env}
    {own own' : Statics.Scope} (statement : Stmt) (written : statement.Written)
    (admits : Admits result inLoop outer own statement own') (plain : statement.declares = false) :
    own' = own := by
  cases admits with
  | «variable» introduces fresh => cases plain
  | @choice _ _ _ _ _ _ _ _ _ _ alternative typed consequent other =>
      have isPlain : alternative.declares = false := by
        have isAlternative := written.2.2.1
        cases alternative <;> first | rfl | exact isAlternative.elim
      exact own_eq alternative written.2.2.2 other isPlain
  | _ => rfl
termination_by sizeOf statement

namespace Lowering

open IR Semantics Bounded Build Statics

theorem State.grows_branch (state : State) (condition : Value) (ifTrue ifFalse : BlockName) :
    state.Grows (state.branch condition ifTrue ifFalse) :=
  State.grows_put (.branch condition ifTrue ifFalse) 0

theorem State.grows_jumpIfOpen (state : State) (target : BlockName) :
    state.Grows (state.jumpIfOpen target) := by
  unfold State.jumpIfOpen
  split
  · exact State.grows_put (.jump target) 0
  · exact .refl _

theorem State.grows_jump (state : State) (target : BlockName) : state.Grows (state.jump target) :=
  State.grows_put (.jump target) 0

namespace Simulation

variable {Double : Type} {sim : Simulation Double} {before middle after : Draft}
    {state last : State}
  {context : Nat} {contexts : List Nat} {layer : Layer} {layers : List Layer}
  {frame next : Frame Double} {scopes : List (Semantics.Scope Double)} {store : Store Double}
  {arguments : List (Datum Double)} {value : Value} {loop : Option LoopTargets}
  {depth blocks : Nat} {goal onward : Bounded Double}

section Signals

variable (sim) in
/-- What the signal of a statement asks of a run: a normal end is said otherwise, a break and a
continue come to the blocks of the loop, and a return ends the run. -/
def Signals (loop : Option LoopTargets) (arguments : List (Datum Double))
    (turned : Frame Double → Store Double → Prop) (passed : Store Double → Bounded Double → Prop)
    (result : Signal Double × Store Double) (onward : Bounded Double) : Prop :=
  match result.1 with
  | .normal => passed result.2 onward
  | .broke => ∃ targets ∈ loop, ∃ next, onward = sim.entering targets.done.id next result.2.trace ∧
      next.arguments = arguments ∧ turned next result.2
  | .continued => ∃ targets ∈ loop, ∃ next,
      onward = sim.entering targets.next.id next result.2.trace ∧ next.arguments = arguments ∧
        turned next result.2
  | .returned value => onward = const (.done (value, result.2.trace)) ∧
      Returned sim.final.function.result value

variable (sim) in
/-- A statement has ended normally: the run goes on behind its code, with a frame that mirrors the
scopes in layers, the innermost of which fits. -/
def Passed (last : State) (context : Nat) (contexts : List Nat) (arguments : List (Datum Double))
    (layers : List Layer) (fits : Layer → Prop) (store : Store Double) (onward : Bounded Double) :
    Prop :=
  last.isOpen = true ∧ ∃ layer next, fits layer ∧ onward = sim.point last next store.trace ∧
    next.arguments = arguments ∧ last.Binds sim.signature? (context :: contexts) (layer :: layers) ∧
    next.Mirrors (layer :: layers) store.scopes

variable {turned turned' : Frame Double → Store Double → Prop}
  {passed passed' : Store Double → Bounded Double → Prop}
  {run : Run Double (Signal Double × Store Double)}

/-- Control goes on from where a normal end has come to. -/
theorem meets_pass (meets : Meets depth blocks run goal (sim.Signals loop arguments turned passed))
    (turns : ∀ next store, turned next store → turned' next store)
    (passes : ∀ store onward, passed store onward →
      ∃ onward', onward.Leads onward' ∧ passed' store onward') :
    Meets depth blocks run goal (sim.Signals loop arguments turned' passed') := by
  refine meets.reach ?_
  rintro ⟨signal, store⟩ onward shown
  cases signal with
  | normal => exact passes store onward shown
  | broke =>
      obtain ⟨targets, member, next, isOnward, given, holds⟩ := shown
      exact ⟨onward, .refl _, targets, member, next, isOnward, given, turns next store holds⟩
  | continued =>
      obtain ⟨targets, member, next, isOnward, given, holds⟩ := shown
      exact ⟨onward, .refl _, targets, member, next, isOnward, given, turns next store holds⟩
  | returned value => exact ⟨onward, .refl _, shown⟩

/-- Leaving a scope keeps every signal. -/
theorem meets_leaveScope
    (meets : Meets depth blocks run goal (sim.Signals loop arguments turned passed))
    (turns : ∀ next store, turned next store → turned' next store.pop)
    (passes : ∀ store onward, passed store onward → passed' store.pop onward) :
    Meets depth blocks (leaveScope run) goal (sim.Signals loop arguments turned' passed') := by
  refine meets.bind ?_
  rintro ⟨signal, store⟩ onward shown
  refine .done ?_
  cases signal with
  | normal => exact passes store onward shown
  | broke =>
      obtain ⟨targets, member, next, isOnward, given, holds⟩ := shown
      exact ⟨targets, member, next, isOnward, given, turns next store holds⟩
  | continued =>
      obtain ⟨targets, member, next, isOnward, given, holds⟩ := shown
      exact ⟨targets, member, next, isOnward, given, turns next store holds⟩
  | returned value => exact shown

/-- Behind a scope there is the layer around it. -/
theorem Passed.leave {inner : Nat} {fits : Layer → Prop}
    (passed : sim.Passed last inner (context :: contexts) arguments (layer :: layers) fits
      store onward) :
    sim.Passed last context contexts arguments layers (· = layer) store.pop onward := by
  obtain ⟨takes, _, next, -, isOnward, given, binds, mirrors⟩ := passed
  exact ⟨takes, layer, next, rfl, isOnward, given, binds.leave, mirrors.pop⟩

end Signals

section Standing

/-- Behind a course that changes no meaning, layers stay bound. -/
theorem Stands.passes (stands : sim.Stands before context contexts layers frame scopes)
    (passes : Passes sim.signature? context before after) (takes : after.state.isOpen = true)
    {scopes' : List (Semantics.Scope Double)} (mirrors : next.Mirrors layers scopes') :
    sim.Stands after context contexts layers next scopes' where
  ready := passes.course.ready
  takes := takes
  binds := by
    refine stands.binds.mono (fun other member => ?_) passes.course.grows.nextId_le
    rcases List.mem_cons.mp member with rfl | outer
    · exact passes.meanings
    · exact passes.course.outer other (stands.binds.lt other outer)
  mirrors := mirrors

/-- A new scope is empty. -/
theorem Stands.openScope (stands : sim.Stands before context contexts layers frame scopes)
    {kind : ScopeKind} {label : Bytes} :
    sim.Stands ⟨before.state.openScope context kind label, before.known⟩ before.state.nextContext
      (context :: contexts) ([] :: layers) frame ([] :: scopes) where
  ready := stands.ready.openScope
  takes := stands.takes
  binds := stands.binds.openScope stands.ready.wellScoped stands.ready.inside
  mirrors := stands.mirrors.push

theorem opened_of_isOpen (takes : state.isOpen = true) : state.opened = state := by
  rw [State.opened, if_pos takes]

/-- Behind an expression a statement goes on. -/
theorem Yields.passed {α : Type} {holds : Frame Double → α → Prop} {result : α × Store Double}
    (stands : sim.Stands before context contexts (layer :: layers) frame scopes)
    (given : frame.arguments = arguments)
    (evaluates : Evaluates sim.signature? context before after value)
    (yields : sim.Yields before.state after.state frame (layer :: layers) holds result onward) :
    sim.Passed after.state context contexts arguments layers (· = layer) result.2 onward := by
  obtain ⟨next, isOnward, kept, mirrors, -⟩ := yields
  exact ⟨evaluates.takes, layer, next, rfl, isOnward, kept.arguments.trans given,
    (stands.behind evaluates mirrors).binds, mirrors⟩

end Standing

section Declarations

theorem zeroDatum_eq (machine : Machine Double) {type : BasicType} (isValue : type.IsValue) :
    zeroDatum machine type = some (literalDatum machine (zeroLiteral type)) := by
  cases type with
  | int | float | bool | string => rfl
  | void => exact absurd rfl isValue.1
  | invalid => exact absurd rfl isValue.2

/-- A variable begins with what the source gives it. -/
theorem meets_begins {declaration : VarDecl} {asked : Store Double → Bounded Double → Prop}
    (begins : Begins context before.state declaration value last) (written : declaration.Written)
    (stands : sim.Stands before context contexts layers frame store.scopes)
    (grows : last.Grows sim.final)
    (later : ∀ datum (store : Store Double) next, frame.Kept before.state.nextId next →
      next.Mirrors layers store.scopes →
      value.datum? sim.machine sim.module.strings next = some datum → datum.type = value.type →
      Meets sim.depth sim.rounds (.done (store.declare declaration.name.name datum))
        (sim.point last next store.trace) asked) :
    Meets sim.depth sim.rounds (evalVariable sim.machine sim.declared sim.call declaration store)
      (sim.point before.state frame store.trace) asked := by
  cases begins with
  | @given expression _ initial run notVoid =>
      rw [evalVariable, initial]
      refine (lowerExpr_meets expression (written expression initial) stands run grows).bind ?_
      rintro ⟨computed, store⟩ _ ⟨next, rfl, kept, mirrors, reads⟩
      obtain ⟨datum, rfl, found, typed⟩ := reads notVoid
      exact later datum store next kept mirrors found typed
  | @zero identifier type initial annotated named notVoid isZero =>
      obtain ⟨sameValue, sameState⟩ := zeroOf_eq before.state type
      have isValue : type.IsValue := ⟨notVoid, ofName?_ne_invalid named⟩
      have zero : (declaration.type >>= fun type => BasicType.ofName? type.name >>=
          zeroDatum sim.machine) = some (literalDatum sim.machine (zeroLiteral type)) := by
        rw [annotated, Option.bind_eq_bind, Option.bind_some, named, Option.bind_eq_bind,
          Option.bind_some, zeroDatum_eq sim.machine isValue]
      rw [sameState] at grows later
      obtain rfl := isZero.trans sameValue
      have valued : (literalValue before.state (zeroLiteral type)).type ≠ .void := by
        rw [← sameValue, zeroOf_type before.state notVoid isValue.2]
        exact notVoid
      obtain ⟨_, ⟨⟩, found, typed⟩ := reads_literal frame grows valued
      rw [evalVariable, initial, zero, ← point_addLiteral (zeroLiteral type)]
      exact later _ store frame (.refl _ _) stands.mirrors found typed

/-- A variable gets a slot that holds its first value. -/
theorem Stands.hold {symbol owned : Symbol} {table : ScopeTable} {datum : Datum Double}
    (stands : sim.Stands before context contexts (layer :: layers) frame scopes)
    (usable : before.Usable sim.signature? value) (assignable : symbol.isAssignable = true)
    (plain : ∃ type, symbol.type = some (.basic type))
    (declares : before.state.table.declare context symbol = .ok (owned, table))
    (fresh : symbol.name ∉ layer.map Prod.fst)
    (found : value.datum? sim.machine sim.module.strings frame = some datum)
    (typed : datum.type = value.type)
    (grows : ((before.state.withTable table).hold owned value.type value).Grows sim.final) :
    ∃ place next, (∀ trace, sim.point before.state frame trace =
        sim.point ((before.state.withTable table).hold owned value.type value) next trace) ∧
      next.arguments = frame.arguments ∧
      sim.Stands ⟨(before.state.withTable table).hold owned value.type value, before.known⟩ context
        contexts ((layer ++ [(symbol.name, place)]) :: layers) next
        (scopes.modifyHead fun scope => scope ++ [(symbol.name, datum)]) := by
  obtain ⟨course, opened, rebinds⟩ :=
    Course.hold stands.ready usable assignable plain declares stands.takes
  let place := before.state.newPlace symbol value.type
  have notes : (before.state.keep place value).Grows
      ((before.state.withTable table).hold owned value.type value) := by
    rw [State.hold_eq declares value]
    exact ⟨rfl, rfl, rfl, Nat.le_refl _, Nat.le_refl _, fun _ => List.prefix_rfl, List.prefix_rfl,
      fun _ member => member, id⟩
  have apart : place.id ∉ slotIds (layer :: layers) := fun member =>
    Nat.lt_irrefl _ (stands.binds.below _ member)
  refine ⟨place, (frame.make place).fill place datum, fun trace => ?_, rfl,
    { ready := course.ready, takes := opened, binds := ?_, mirrors := ?_ }⟩
  · rw [sim.point_keep stands.owned found (notes.trans grows), State.hold_eq declares value]
    exact (sim.point_congr rfl rfl).symm
  · exact stands.binds.declare rebinds fresh course.outer (Nat.le_refl _)
      (Nat.lt_of_lt_of_le (Nat.lt_succ_self _) notes.nextId_le)
  · refine stands.mirrors.declare (fun id member => ?_) (slots_fill_self _ _ _) typed
    have differ : id ≠ place.id := fun same => apart (same ▸ member)
    rw [slots_fill_of_ne _ _ differ, slots_make_of_ne _ differ]

/-- **The code of a declaration makes a variable that holds its initial value.** -/
theorem lowerVariable_meets {declaration : VarDecl} (written : declaration.Written)
    (stands : sim.Stands before context contexts (layer :: layers) frame store.scopes)
    (given : frame.arguments = arguments) (fresh : declaration.name.name ∉ layer.map Prod.fst)
    (run : lowerVariable context declaration before.state = .ok ((), last))
    (grows : last.Grows sim.final) :
    Meets sim.depth sim.rounds (evalVariable sim.machine sim.declared sim.call declaration store)
      (sim.point before.state frame store.trace)
      (sim.Passed last context contexts arguments layers fun layer' =>
        layer'.map Prod.fst = layer.map Prod.fst ++ [declaration.name.name]) := by
  obtain ⟨value, _, owned, table, begins, declares, rfl⟩ := lowerVariable_ok run
  obtain ⟨middle, rfl, evaluates, notVoid⟩ := begins.evaluates written stands.ready stands.takes
  have usable := evaluates.usable notVoid
  obtain ⟨course, -, -⟩ :=
    Course.hold evaluates.ready usable rfl ⟨_, rfl⟩ declares evaluates.takes
  refine meets_begins begins written stands (course.grows.trans grows)
    fun datum store next kept mirrors found typed => ?_
  obtain ⟨place, held, same, sameArguments, holds⟩ :=
    (stands.behind evaluates mirrors).hold usable rfl
    ⟨_, rfl⟩ declares fresh found typed grows
  rw [same]
  exact .done ⟨holds.takes, _, held, by simp [variableSymbol], rfl,
    sameArguments.trans (kept.arguments.trans given), holds.binds, holds.mirrors⟩

end Declarations

section Parts

/-- The code of a condition computes a truth value. -/
theorem meets_condition {expression : Expr} (written : expression.Written)
    (stands : sim.Stands before context contexts layers frame store.scopes)
    (run : lowerExpr context expression before.state = .ok (value, last))
    (isTruth : value.type = .bool) (grows : last.Grows sim.final) :
    Meets sim.depth sim.rounds (evalCondition sim.machine sim.declared sim.call expression store)
      (sim.point before.state frame store.trace)
      (sim.Yields before.state last frame layers fun next flag =>
        value.datum? sim.machine sim.module.strings next = some (.bool flag)) := by
  refine (lowerExpr_meets expression written stands run grows).bind ?_
  rintro ⟨computed, store⟩ _ ⟨next, rfl, kept, mirrors, reads⟩
  obtain ⟨datum, rfl, found, typed⟩ := reads (by simp [isTruth])
  obtain ⟨flag, rfl⟩ := exists_bool_of_type (typed.trans isTruth)
  exact .done ⟨next, rfl, kept, mirrors, found⟩

/-- From a block that is still open, control goes on to another one. -/
theorem Passed.jumpIfOpen {fits : Layer → Prop} {target : BlockName}
    (passed : sim.Passed state context contexts arguments layers fits store onward)
    (owned : (state.function.block? state.current.id).isSome)
    (grows : (state.jumpIfOpen target).Grows sim.final) :
    ∃ layer next, fits layer ∧ onward = sim.entering target.id next store.trace ∧
      next.arguments = arguments ∧ next.Mirrors (layer :: layers) store.scopes := by
  obtain ⟨takes, layer, next, isLayer, rfl, given, -, mirrors⟩ := passed
  rw [State.jumpIfOpen, if_pos takes] at grows
  exact ⟨layer, next, isLayer, sim.point_jump owned grows, given, mirrors⟩

variable (sim) in
/-- The code of statements does what the statements do, wherever they are lowered. -/
def RunsAll (statements : List Stmt) : Prop :=
  ∀ {loop : Option LoopTargets} {context : Nat} {contexts : List Nat} {before : Draft}
    {last : State}
    {frame : Frame Double} {store : Store Double} {layer : Layer} {layers : List Layer}
    {arguments : List (Datum Double)} {result : BasicType} {inLoop : Bool} {outer : Env}
    {own own' : Statics.Scope},
    sim.Stands before context contexts (layer :: layers) frame store.scopes →
    frame.arguments = arguments → before.Loops loop → layer.map Prod.fst = own.names →
    AdmitsAll result inLoop outer own statements own' →
    lowerStmts context loop statements before.state = .ok ((), last) → last.Grows sim.final →
    Meets sim.depth sim.rounds
      (evalStmts sim.machine sim.declared sim.call sim.rounds statements store)
      (sim.point before.state frame store.trace)
      (sim.Signals loop arguments (fun next store => next.Mirrors layers store.scopes.tail)
        (sim.Passed last context contexts arguments layers fun _ => True))

/-- Statements in a scope of their own leave the scope around them as it is. -/
theorem RunsAll.inScope {statements : List Stmt} (runs : sim.RunsAll statements) {kind : ScopeKind}
    {label : Bytes} {result : BasicType} {inLoop : Bool} {outer : Env} {own : Statics.Scope}
    (admits : AdmitsAll result inLoop outer [] statements own)
    (stands : sim.Stands before context contexts (layer :: layers) frame store.scopes)
    (given : frame.arguments = arguments) (loops : before.Loops loop)
    (run : inScope context kind label (fun inner => lowerStmts inner loop statements) before.state =
      .ok ((), last)) (grows : last.Grows sim.final) :
    Meets sim.depth sim.rounds
      (leaveScope (evalStmts sim.machine sim.declared sim.call sim.rounds statements
        (store.push [])))
      (sim.point before.state frame store.trace)
      (sim.Signals loop arguments (fun next store => next.Mirrors (layer :: layers) store.scopes)
        (sim.Passed last context contexts arguments layers (· = layer))) := by
  have opens : sim.point (before.state.openScope context kind label) frame store.trace =
      sim.point before.state frame store.trace := sim.point_congr rfl rfl
  have inside : sim.Stands ⟨before.state.openScope context kind label, before.known⟩
      before.state.nextContext (context :: contexts) ([] :: layer :: layers) frame
      (store.push []).scopes := stands.openScope
  have ran := runs inside given loops.openScope rfl admits (inScope_ok.mp run).2 grows
  rw [← opens]
  exact meets_leaveScope ran (fun _ _ mirrors => mirrors) fun _ _ passed => passed.leave

end Parts

section Branching

variable {base : Draft} {condition : Value} {flag : Bool}
  {act act' : Store Double → Run Double (Signal Double × Store Double)}

variable (sim) in
/-- A part of lowering does what a part of the source does, and declares nothing. -/
def Acts (loop : Option LoopTargets) (context : Nat) (contexts : List Nat) (layer : Layer)
    (layers : List Layer) (part : Build Unit)
    (act : Store Double → Run Double (Signal Double × Store Double)) : Prop :=
  ∀ {before : Draft} {last : State} {frame : Frame Double} {store : Store Double}
    {arguments : List (Datum Double)},
    sim.Stands before context contexts (layer :: layers) frame store.scopes →
    frame.arguments = arguments → before.Loops loop → part before.state = .ok ((), last) →
    last.Grows sim.final →
    Meets sim.depth sim.rounds (act store) (sim.point before.state frame store.trace)
      (sim.Signals loop arguments (fun next store => next.Mirrors layers store.scopes.tail)
        (sim.Passed last context contexts arguments layers (· = layer)))

theorem RunsAll.acts {statements : List Stmt} (runs : sim.RunsAll statements) {kind : ScopeKind}
    {label : Bytes} {result : BasicType} {inLoop : Bool} {outer : Env} {own : Statics.Scope}
    (admits : AdmitsAll result inLoop outer [] statements own) :
    sim.Acts loop context contexts layer layers
      (Lowering.inScope context kind label fun inner => lowerStmts inner loop statements)
      fun store => leaveScope
        (evalStmts sim.machine sim.declared sim.call sim.rounds statements (store.push [])) := by
  intro before last frame store arguments stands given loops run grows
  exact meets_pass (runs.inScope admits stands given loops run grows)
    (fun next store mirrors => mirrors.pop) fun store onward passed => ⟨onward, .refl _, passed⟩

/-- The end of an arm: control goes on to the block behind, which is entered while it is empty. -/
theorem meets_arm {run : Run Double (Signal Double × Store Double)} {target : BlockName}
    {turned : Frame Double → Store Double → Prop} {ended : State}
    (stands : sim.Stands base context contexts (layer :: layers) frame scopes)
    (owned : (state.function.block? state.current.id).isSome)
    (jumps : (state.jumpIfOpen target).Grows sim.final)
    (meets : Meets depth blocks run goal (sim.Signals loop arguments turned
      (sim.Passed state context contexts arguments layers (· = layer))))
    (below : target.id < sim.final.function.nextBlock) (empty : ended.function.code target.id = [])
    (passes : Passes sim.signature? context base ⟨ended.enter target, known⟩)
    (takes : (ended.enter target).isOpen = true) :
    Meets depth blocks run goal (sim.Signals loop arguments turned
      (sim.Passed (ended.enter target) context contexts arguments layers (· = layer))) := by
  refine meets_pass meets (fun _ _ holds => holds) fun store onward passed => ?_
  obtain ⟨_, next, rfl, rfl, given, mirrors⟩ := passed.jumpIfOpen owned jumps
  exact ⟨_, sim.leads_entering below empty, takes, _, next, rfl, rfl, given,
    (stands.passes passes takes mirrors).binds, mirrors⟩

/-- Control comes from a branch to a block that is still empty. -/
theorem leads_branch {made : Draft} {name ifTrue ifFalse : BlockName} {trace : Trace Double}
    (fresh : base.Fresh made name)
    (grows : (made.state.branch condition ifTrue ifFalse).Grows sim.final) :
    (sim.entering name.id frame trace).Leads
      (sim.point ((made.state.branch condition ifTrue ifFalse).enter name) frame trace) := by
  have madeGrows := (State.grows_branch made.state condition ifTrue ifFalse).trans grows
  have put : made.state.branch condition ifTrue ifFalse =
      made.state.put (.branch condition ifTrue ifFalse) 0 := rfl
  have empty : (made.state.branch condition ifTrue ifFalse).function.code name.id = [] := by
    rw [put, State.code_put_of_ne fresh.elsewhere, fresh.empty]
  exact sim.leads_entering (Nat.lt_of_lt_of_le fresh.below madeGrows.nextBlock_le) empty

section Arms

variable (stands : sim.Stands base context contexts (layer :: layers) frame store.scopes)
  (given : frame.arguments = arguments) (loops : base.Loops loop)
  (usable : base.Usable sim.signature? condition) (isTruth : condition.type = .bool)
  (found : condition.datum? sim.machine sim.module.strings frame = some (.bool flag))
  (grows : last.Grows sim.final)
include stands given loops usable isTruth found grows

/-- A conditional without an alternative. -/
theorem lowerWhen_meets {consequent : Build Unit}
    (passes : PassesAll sim.signature? context loop consequent)
    (acts : sim.Acts loop context contexts layer layers consequent act)
    (run : lowerWhen condition consequent base.state = .ok ((), last)) :
    Meets sim.depth sim.rounds (if flag then act store else .done (.normal, store))
      (sim.point base.state frame store.trace)
      (sim.Signals loop arguments (fun next store => next.Mirrors layers store.scopes.tail)
        (sim.Passed last context contexts arguments layers (· = layer))) := by
  obtain ⟨thenBlock, endBlock, _, _, rfl, rfl, rfl, armRun, rfl⟩ := lowerWhen_ok run
  obtain ⟨prepares, thenFresh, endFresh⟩ := Prepares.makeWhen stands.ready
  obtain ⟨forks, opens, stays⟩ :=
    prepares.fork stands.ready stands.takes usable isTruth thenFresh endFresh
  obtain ⟨middle, rfl, arm⟩ := passes forks.course.ready opens (forks.course.loops loops) armRun
  have behind := (stays _ (Nat.succ_ne_self _) endFresh).course arm.course
  obtain ⟨turns, ends, -⟩ := (forks.trans arm).turn stands.ready behind.toMade behind
  have jumps := Passes.jumpIfOpen arm.course.ready
    (behind.reaches stands.ready.sound (forks.trans arm).course.held_subset)
  have endThere := behind.course jumps.course
  have jumpGrows := (State.grows_enter _).trans grows
  have armGrows := jumps.course.grows.trans jumpGrows
  have forkGrows := (State.grows_enter _).trans (arm.course.grows.trans armGrows)
  have endBelow := Nat.lt_of_lt_of_le endThere.below jumpGrows.nextBlock_le
  rw [← sim.point_congr prepares.current (congrFun prepares.code_eq _),
    sim.point_branch prepares.course.ready.sound.owned found forkGrows]
  cases flag with
  | true =>
      have acted := acts (stands.passes forks opens stands.mirrors) given (forks.course.loops loops)
        armRun armGrows
      exact meets_arm stands arm.course.ready.sound.owned jumpGrows
        (acted.lead (leads_branch thenFresh forkGrows)) endBelow endThere.empty turns ends
  | false =>
      exact .lead (sim.leads_entering endBelow endThere.empty) (.done ⟨ends, layer, frame, rfl, rfl,
        given, (stands.passes turns ends stands.mirrors).binds, stands.mirrors⟩)

/-- A conditional with an alternative. -/
theorem lowerChoice_meets {consequent alternative : Build Unit}
    (passes : PassesAll sim.signature? context loop consequent)
    (passes' : PassesAll sim.signature? context loop alternative)
    (acts : sim.Acts loop context contexts layer layers consequent act)
    (acts' : sim.Acts loop context contexts layer layers alternative act')
    (run : lowerChoice condition consequent alternative base.state = .ok ((), last)) :
    Meets sim.depth sim.rounds (if flag then act store else act' store)
      (sim.point base.state frame store.trace)
      (sim.Signals loop arguments (fun next store => next.Mirrors layers store.scopes.tail)
        (sim.Passed last context contexts arguments layers (· = layer))) := by
  obtain ⟨thenBlock, elseBlock, endBlock, _, _, _, rfl, rfl, rfl, rfl, thenRun, elseRun, rfl⟩ :=
    lowerChoice_ok run
  obtain ⟨prepares, thenFresh, elseFresh, endFresh⟩ := Prepares.makeChoice stands.ready
  obtain ⟨forks, opens, stays⟩ :=
    prepares.fork stands.ready stands.takes usable isTruth thenFresh elseFresh
  obtain ⟨middle, rfl, arm⟩ := passes forks.course.ready opens (forks.course.loops loops) thenRun
  have elseThere := (stays _ (Nat.succ_ne_self _) elseFresh).course arm.course
  have apart := Nat.ne_of_gt (Nat.lt_succ_of_lt (Nat.lt_succ_self base.state.function.nextBlock))
  have behind := (stays _ apart endFresh).course arm.course
  obtain ⟨turns, opens', stays'⟩ := (forks.trans arm).turn stands.ready behind.toMade elseThere
  obtain ⟨after, rfl, arm'⟩ :=
    passes' turns.course.ready opens' (turns.course.loops loops) elseRun
  have behind' := (stays' _ (Nat.succ_ne_self _) behind).course arm'.course
  obtain ⟨ends, opensEnd, -⟩ := (turns.trans arm').turn stands.ready behind'.toMade behind'
  have jumps := Passes.jumpIfOpen arm.course.ready
    (behind.reaches stands.ready.sound (forks.trans arm).course.held_subset)
  have jumps' := Passes.jumpIfOpen arm'.course.ready
    (behind'.reaches stands.ready.sound (turns.trans arm').course.held_subset)
  have endThere := behind'.course jumps'.course
  have elseStill := elseThere.course jumps.course
  -- what each state of the course grows to
  have jumpGrows' := (State.grows_enter _).trans grows
  have armGrows' := jumps'.course.grows.trans jumpGrows'
  have jumpGrows := (State.grows_enter _).trans (arm'.course.grows.trans armGrows')
  have armGrows := jumps.course.grows.trans jumpGrows
  have forkGrows := (State.grows_enter _).trans (arm.course.grows.trans armGrows)
  have endBelow := Nat.lt_of_lt_of_le endThere.below jumpGrows'.nextBlock_le
  have elseBelow := Nat.lt_of_lt_of_le elseStill.below jumpGrows.nextBlock_le
  rw [← sim.point_congr prepares.current (congrFun prepares.code_eq _),
    sim.point_branch prepares.course.ready.sound.owned found forkGrows]
  cases flag with
  | true =>
      have acted := acts (stands.passes forks opens stands.mirrors) given (forks.course.loops loops)
        thenRun armGrows
      exact meets_arm stands arm.course.ready.sound.owned jumpGrows
        (acted.lead (leads_branch thenFresh forkGrows)) endBelow endThere.empty ends opensEnd
  | false =>
      have acted :=
        acts' (stands.passes turns opens' stands.mirrors) given (turns.course.loops loops)
        elseRun armGrows'
      exact meets_arm stands arm'.course.ready.sound.owned jumpGrows'
        (acted.lead (sim.leads_entering elseBelow elseStill.empty)) endBelow endThere.empty
          ends opensEnd

end Arms

end Branching

section Loops

variable {base tested advanced : Draft} {scope : Nat} {condition advance : Option Expr}
  {body : LoopTargets → Build Unit} {act : Store Double → Run Double (Signal Double × Store Double)}

variable (sim) in
/-- Control comes to a block with a frame that mirrors the scopes. -/
def Comes (name : BlockName) (arguments : List (Datum Double)) (layers : List Layer)
    (store : Store Double) (onward : Bounded Double) : Prop :=
  ∃ next, onward = sim.entering name.id next store.trace ∧ next.arguments = arguments ∧
    next.Mirrors layers store.scopes

/-- The code of the start of a loop does what the loop does before its first round. -/
theorem lowerStart_meets {start : Option LoopStart} (written : ∀ first ∈ start, first.Written)
    (stands : sim.Stands before context contexts ([] :: layers) frame store.scopes)
    (given : frame.arguments = arguments)
    (run : start.forM (lowerStart context) before.state = .ok ((), last))
    (grows : last.Grows sim.final) :
    Meets sim.depth sim.rounds (evalStart sim.machine sim.declared sim.call start store)
      (sim.point before.state frame store.trace)
      (sim.Passed last context contexts arguments layers fun _ => True) := by
  match start, written, run with
  | none, written, run =>
      obtain ⟨-, rfl⟩ := Prod.mk.inj (pure_ok.mp run)
      exact .done ⟨stands.takes, [], frame, trivial, rfl, given, stands.binds, stands.mirrors⟩
  | some (.variable declaration), written, run =>
      refine (lowerVariable_meets (written _ rfl) stands given (List.not_mem_nil) run grows).imp ?_
      rintro store onward ⟨takes, layer, next, -, shown⟩
      exact ⟨takes, layer, next, trivial, shown⟩
  | some (.expression statement), written, run =>
      obtain ⟨value, _, valueRun, finished⟩ := bind_ok.mp run
      obtain rfl := (Prod.mk.inj (pure_ok.mp finished)).2
      obtain ⟨after, rfl, evaluates⟩ := lowerExpr_evaluates statement.expression (written _ rfl)
        stands.ready stands.takes valueRun
      refine (lowerExpr_meets statement.expression (written _ rfl) stands valueRun grows).bind ?_
      rintro ⟨computed, store⟩ onward yields
      obtain ⟨takes, layer, next, -, shown⟩ := yields.passed stands given evaluates
      exact .done ⟨takes, layer, next, trivial, shown⟩

/-- The code of the test of a loop branches as the test says. -/
theorem lowerTest_meets {bodyBlock endBlock : BlockName}
    (written : ∀ test ∈ condition, test.Written)
    (stands : sim.Stands before context contexts layers frame store.scopes)
    (given : frame.arguments = arguments)
    (run : lowerTest context bodyBlock endBlock condition before.state = .ok ((), last))
    (grows : last.Grows sim.final) :
    Meets sim.depth sim.rounds (evalTest sim.machine sim.declared sim.call condition store)
      (sim.point before.state frame store.trace)
      fun result => sim.Comes (if result.1 then bodyBlock else endBlock) arguments layers
        result.2 := by
  rcases lowerTest_ok run with ⟨rfl, rfl⟩ | ⟨expression, value, _, rfl, valueRun, isTruth, rfl⟩
  · exact .done ⟨frame, sim.point_jump stands.owned grows, given, stands.mirrors⟩
  · obtain ⟨middle, rfl, evaluates⟩ := lowerExpr_evaluates expression (written expression rfl)
      stands.ready stands.takes valueRun
    refine (meets_condition (written expression rfl) stands valueRun isTruth
      ((State.grows_branch _ _ _ _).trans grows)).imp ?_
    rintro ⟨flag, store⟩ _ ⟨next, rfl, kept, mirrors, found⟩
    exact ⟨next, sim.point_branch evaluates.ready.sound.owned found grows,
      kept.arguments.trans given,
      mirrors⟩

variable (rounds : Rounds sim.signature? context condition advance body base tested middle advanced)
  (conditionWritten : ∀ test ∈ condition, test.Written)
  (advanceWritten : ∀ last ∈ advance, last.Written)
include rounds

section Growth

include advanceWritten

theorem Rounds.advance_grows (ready : base.Ready sim.signature? context) :
    (middle.state.jumpIfOpen (base.state.nextName advance)).Grows advanced.state := by
  rcases lowerAdvance_ok rounds.advanceRun with
    ⟨-, same⟩ | ⟨expression, value, _, rfl, valueRun, isAdvanced⟩
  · rw [same]
    exact .refl _
  · have fresh := rounds.post_fresh rfl
    obtain ⟨after, rfl, evaluates⟩ := lowerExpr_evaluates expression (advanceWritten expression rfl)
      (rounds.jumps.enter ready fresh).course.ready
      (fresh.isOpen rounds.jumps.course.ready.sound) valueRun
    rw [isAdvanced]
    exact (State.grows_enter _).trans (evaluates.course.grows.trans (State.grows_jump _ _))

/-- What comes behind the loop grows from every part of it. -/
theorem Rounds.grows_final (ready : base.Ready sim.signature? context)
    (grows : (advanced.state.enter (base.state.doneName advance)).Grows sim.final) :
    (base.header advance).state.Grows sim.final ∧ tested.state.Grows sim.final ∧
      middle.state.Grows sim.final ∧
      (middle.state.jumpIfOpen (base.state.nextName advance)).Grows sim.final := by
  have jumpGrows := (Rounds.advance_grows rounds advanceWritten ready).trans
    ((State.grows_enter _).trans grows)
  have bodyGrows := (State.grows_jumpIfOpen _ _).trans jumpGrows
  have testGrows : tested.state.Grows sim.final :=
    (State.grows_enter _).trans (rounds.runs.course.grows.trans bodyGrows)
  exact ⟨rounds.tests.course.grows.trans testGrows, testGrows, bodyGrows, jumpGrows⟩

end Growth

variable (stands : sim.Stands base context contexts (layer :: layers) frame scopes)
include stands

include advanceWritten in
/-- The code at the end of a round leads to the beginning of the next one. -/
theorem lowerAdvance_meets (mirrors : next.Mirrors (layer :: layers) store.scopes)
    (given : next.arguments = arguments) (grows : advanced.state.Grows sim.final) :
    Meets sim.depth sim.rounds (evalAdvance sim.machine sim.declared sim.call advance store)
      (sim.entering (base.state.nextName advance).id next store.trace)
      (sim.Comes base.state.condName arguments (layer :: layers)) := by
  rcases lowerAdvance_ok rounds.advanceRun with
    ⟨rfl, -⟩ | ⟨expression, value, _, rfl, valueRun, isAdvanced⟩
  · exact .done ⟨next, rfl, given, mirrors⟩
  · have fresh := rounds.post_fresh rfl
    have enters := rounds.jumps.enter stands.ready fresh
    have takes := fresh.isOpen rounds.jumps.course.ready.sound
    obtain ⟨after, rfl, evaluates⟩ := lowerExpr_evaluates expression (advanceWritten expression rfl)
      enters.course.ready takes valueRun
    rw [isAdvanced] at grows
    have valueGrows := (State.grows_jump _ _).trans grows
    have below := (evaluates.course.grows.trans valueGrows).nextBlock_le
    have inside := stands.passes enters takes mirrors
    refine sim.meets_entering (Nat.lt_of_lt_of_le fresh.below below) fresh.empty ?_
    refine (lowerExpr_meets expression (advanceWritten expression rfl) inside valueRun
      valueGrows).bind ?_
    rintro ⟨computed, store⟩ _ ⟨last, rfl, kept, mirrors, -⟩
    exact .done ⟨last, sim.point_jump evaluates.ready.sound.owned grows, kept.arguments.trans given,
      mirrors⟩

omit rounds in
/-- Before a loop there is a jump to its first block, which is still empty. -/
theorem point_header (grows : (base.header advance).state.Grows sim.final) (next : Frame Double)
    (trace : Trace Double) :
    sim.point base.state next trace = sim.entering base.state.condName.id next trace ∧
      ∀ depth blocks, sim.entering base.state.condName.id next trace depth (blocks + 1) =
        sim.point (base.header advance).state next trace depth blocks := by
  obtain ⟨prepares, fresh, -, -, -⟩ := Prepares.makeRounds stands.ready advance
  have header : (base.header advance).state =
      ((base.makeRounds advance).state.jump base.state.condName).enter base.state.condName := by
    cases advance <;> rfl
  have put : (base.makeRounds advance).state.jump base.state.condName =
      (base.makeRounds advance).state.put (.jump base.state.condName) 0 := rfl
  have empty : ((base.makeRounds advance).state.jump base.state.condName).function.code
      base.state.condName.id = [] := by
    rw [put, State.code_put_of_ne fresh.elsewhere, fresh.empty]
  rw [header] at grows ⊢
  have jumpGrows := (State.grows_enter _).trans grows
  have below := Nat.lt_of_lt_of_le fresh.below ((State.grows_jump _ _).trans jumpGrows).nextBlock_le
  refine ⟨?_, sim.entering_succ below empty⟩
  rw [← sim.point_congr prepares.current (congrFun prepares.code_eq _),
    sim.point_jump prepares.course.ready.sound.owned jumpGrows]

section Rounds

variable {turned : Frame Double → Store Double → Prop} {count : Nat}
  (grows : (advanced.state.enter (base.state.doneName advance)).Grows sim.final)
include grows

/-- Behind its last round a loop has ended normally. -/
theorem Rounds.meets_done (mirrors : next.Mirrors (layer :: layers) store.scopes)
    (given : next.arguments = arguments) :
    Meets sim.depth count (.done (.normal, store))
      (sim.entering (base.state.doneName advance).id next store.trace)
      (sim.Signals loop arguments turned
        (sim.Passed (advanced.state.enter (base.state.doneName advance)) context contexts arguments
          layers (· = layer))) := by
  obtain ⟨leaves, opened⟩ := rounds.leaves stands.ready
  have below := Nat.lt_of_lt_of_le rounds.done_fresh.below
    ((State.grows_enter _).trans grows).nextBlock_le
  exact .lead (sim.leads_entering below rounds.done_fresh.empty)
    (.done ⟨opened, layer, next, rfl, rfl,
    given, (stands.passes leaves opened mirrors).binds, mirrors⟩)

include advanceWritten in
/-- Behind the body of a round comes the next one. -/
theorem Rounds.meets_again {asked : Signal Double × Store Double → Bounded Double → Prop}
    (within : count ≤ sim.rounds) (mirrors : next.Mirrors (layer :: layers) store.scopes)
    (given : next.arguments = arguments)
    (again : ∀ (next : Frame Double) (store : Store Double),
      next.Mirrors (layer :: layers) store.scopes → next.arguments = arguments →
      Meets sim.depth count
        (evalRounds (evalTest sim.machine sim.declared sim.call condition) act
          (evalAdvance sim.machine sim.declared sim.call advance) count store)
        (sim.entering base.state.condName.id next store.trace) asked) :
    Meets sim.depth count
      ((evalAdvance sim.machine sim.declared sim.call advance store).bind
        (evalRounds (evalTest sim.machine sim.declared sim.call condition) act
          (evalAdvance sim.machine sim.declared sim.call advance) count))
      (sim.entering (base.state.nextName advance).id next store.trace) asked := by
  refine ((lowerAdvance_meets rounds advanceWritten stands mirrors given
    ((State.grows_enter _).trans grows)).within within).bind ?_
  rintro store _ ⟨next, rfl, given, mirrors⟩
  exact again next store mirrors given

include conditionWritten advanceWritten in
/-- **The code of a loop makes the rounds that the loop makes.** -/
theorem Rounds.meets
    (acts : ∀ (next : Frame Double) (store : Store Double),
      next.Mirrors (layer :: layers) store.scopes → next.arguments = arguments →
      Meets sim.depth sim.rounds (act store)
        (sim.point (tested.state.enter base.state.bodyName) next store.trace)
        (sim.Signals (some ⟨base.state.doneName advance, base.state.nextName advance⟩) arguments
          (fun next store => next.Mirrors (layer :: layers) store.scopes)
          (sim.Passed middle.state context contexts arguments layers (· = layer))))
    (within : count ≤ sim.rounds) (next : Frame Double) (store : Store Double)
    (mirrors : next.Mirrors (layer :: layers) store.scopes) (given : next.arguments = arguments) :
    Meets sim.depth count
      (evalRounds (evalTest sim.machine sim.declared sim.call condition) act
        (evalAdvance sim.machine sim.declared sim.call advance) count store)
      (sim.entering base.state.condName.id next store.trace)
      (sim.Signals loop arguments turned
        (sim.Passed (advanced.state.enter (base.state.doneName advance)) context contexts arguments
          layers (· = layer))) := by
  obtain ⟨begins, beginsOpen, -, -⟩ := Passes.header stands.ready stands.takes advance
  obtain ⟨headerGrows, testGrows, bodyGrows, jumpGrows⟩ :=
    Rounds.grows_final rounds advanceWritten stands.ready grows
  induction count generalizing next store with
  | zero =>
      intro depth' _ blocks' none
      obtain rfl := Nat.le_zero.mp none
      rfl
  | succ count ih =>
      have fewer := Nat.le_of_succ_le within
      refine .spend (point_header stands headerGrows next store.trace).2 (fun _ => rfl)
        sim.grows_running ?_
      refine ((lowerTest_meets conditionWritten (stands.passes begins beginsOpen mirrors) given
        rounds.testRun testGrows).within fewer).bind ?_
      rintro ⟨holds, store⟩ _ ⟨next, rfl, given, mirrors⟩
      cases holds with
      | false => exact Rounds.meets_done rounds stands grows mirrors given
      | true =>
          have bodyBelow := Nat.lt_of_lt_of_le rounds.body_fresh.below testGrows.nextBlock_le
          refine .lead (sim.leads_entering bodyBelow rounds.body_fresh.empty) ?_
          refine ((acts next store mirrors given).within fewer).bind ?_
          rintro ⟨signal, store⟩ onward shown
          cases signal with
          | normal =>
              obtain ⟨_, next, rfl, rfl, given, mirrors⟩ :=
                shown.jumpIfOpen rounds.runs.course.ready.sound.owned jumpGrows
              exact Rounds.meets_again rounds advanceWritten stands grows fewer mirrors given
                (ih fewer)
          | continued =>
              obtain ⟨_, ⟨⟩, next, rfl, given, mirrors⟩ := shown
              exact Rounds.meets_again rounds advanceWritten stands grows fewer mirrors given
                (ih fewer)
          | broke =>
              obtain ⟨_, ⟨⟩, next, rfl, given, mirrors⟩ := shown
              exact Rounds.meets_done rounds stands grows mirrors given
          | returned value => exact .done shown

end Rounds

end Loops

section Loop

variable {kind : ScopeKind} {label : Bytes} {start : Option LoopStart}
    {condition advance : Option Expr}
  {statements : List Stmt}

/-- The code of a loop does what the loop does. -/
theorem lowerLoop_meets {middle : State} (runs : sim.RunsAll statements)
    (startWritten : ∀ first ∈ start, first.Written)
    (conditionWritten : ∀ test ∈ condition, test.Written)
    (advanceWritten : ∀ last ∈ advance, last.Written) (bodyWritten : Stmt.AllWritten statements)
    {result : BasicType} {outer : Env} {own : Statics.Scope}
    (admits : AdmitsAll result true outer [] statements own)
    (stands : sim.Stands before context contexts (layer :: layers) frame store.scopes)
    (given : frame.arguments = arguments)
    (startRun : start.forM (lowerStart before.state.nextContext)
      (before.state.openScope context kind label) = .ok ((), middle))
    (run : lowerRounds before.state.nextContext condition advance
      (fun targets => inScope before.state.nextContext .block "loop.body" fun inner =>
        lowerStmts inner (some targets) statements) middle = .ok ((), last))
    (grows : last.Grows sim.final) :
    Meets sim.depth sim.rounds
      (leaveScope ((evalStart sim.machine sim.declared sim.call start (store.push [])).bind
        (evalRounds (evalTest sim.machine sim.declared sim.call condition)
          (fun store => leaveScope
            (evalStmts sim.machine sim.declared sim.call sim.rounds statements (store.push [])))
          (evalAdvance sim.machine sim.declared sim.call advance) sim.rounds)))
      (sim.point before.state frame store.trace)
      (sim.Signals loop arguments (fun next store => next.Mirrors layers store.scopes.tail)
        (sim.Passed last context contexts arguments layers (· = layer))) := by
  have inside : sim.Stands ⟨before.state.openScope context kind label, before.known⟩
      before.state.nextContext (context :: contexts) ([] :: layer :: layers) frame
      (store.push []).scopes := stands.openScope
  have opens : sim.point (before.state.openScope context kind label) frame store.trace =
      sim.point before.state frame store.trace := sim.point_congr rfl rfl
  obtain ⟨base, rfl, starts, takes⟩ :=
    lowerStarts_course startWritten inside.ready inside.takes startRun
  obtain ⟨tested, middle, advanced, rounds, rfl⟩ := lowerRounds_course conditionWritten
    advanceWritten starts.ready takes (fun targets => PassesAll.inScope fun ready _ loops run =>
      have ⟨after, same, course, _⟩ := lowerStmts_course statements bodyWritten ready loops run
      ⟨after, same, course⟩) run
  have looped : Meets sim.depth sim.rounds
      ((evalStart sim.machine sim.declared sim.call start (store.push [])).bind
        (evalRounds (evalTest sim.machine sim.declared sim.call condition)
          (fun store => leaveScope
            (evalStmts sim.machine sim.declared sim.call sim.rounds statements (store.push [])))
          (evalAdvance sim.machine sim.declared sim.call advance) sim.rounds))
      (sim.point before.state frame store.trace)
      (sim.Signals loop arguments (fun next store => next.Mirrors layers store.pop.scopes.tail)
        (sim.Passed (advanced.state.enter (base.state.doneName advance)) before.state.nextContext
          (context :: contexts) arguments (layer :: layers) fun _ => True)) := by
    obtain ⟨headerGrows, testGrows, bodyGrows, -⟩ :=
      Rounds.grows_final rounds advanceWritten starts.ready grows
    have startGrows := (Passes.header starts.ready takes advance).1.course.grows.trans headerGrows
    rw [← opens]
    refine (lowerStart_meets startWritten inside given startRun startGrows).bind ?_
    rintro store _ ⟨-, inner, next, -, rfl, given, binds, mirrors⟩
    have inLoop : sim.Stands base before.state.nextContext (context :: contexts)
        (inner :: layer :: layers) next store.scopes := ⟨starts.ready, takes, binds, mirrors⟩
    rw [(point_header inLoop headerGrows next store.trace).1]
    refine meets_pass (Rounds.meets rounds conditionWritten advanceWritten inLoop grows ?_
      (Nat.le_refl _) next store mirrors given) (fun _ _ holds => holds) ?_
    · intro next store mirrors given
      have opens := rounds.body_fresh.isOpen rounds.tests.course.ready.sound
      have inBody := inLoop.passes rounds.enters opens mirrors
      have ran := runs.inScope admits inBody given rounds.body_loops rounds.bodyRun bodyGrows
      exact ran
    · rintro store onward ⟨takes, layer, next, -, shown⟩
      exact ⟨onward, .refl _, takes, layer, next, trivial, shown⟩
  exact meets_leaveScope looped (fun _ _ mirrors => mirrors) fun _ _ passed => passed.leave

end Loop

section Leaving

variable {turned : Frame Double → Store Double → Prop}
    {passed : Store Double → Bounded Double → Prop}

/-- The code of a return ends the run with the value. -/
theorem lowerReturn_meets {first : Position} {result : Option Expr}
    (written : ∀ expression ∈ result, expression.Written)
    (stands : sim.Stands before context contexts layers frame store.scopes)
    (run : lowerReturn context first result before.state = .ok ((), last))
    (grows : last.Grows sim.final) :
    Meets sim.depth sim.rounds (evalReturn sim.machine sim.declared sim.call result store)
      (sim.point before.state frame store.trace) (sim.Signals loop arguments turned passed) := by
  rcases lowerReturn_ok run with
    ⟨rfl, void, rfl⟩ | ⟨expression, value, _, rfl, valueRun, typed, notVoid, -, rfl⟩
  · have returns : sim.final.function.result = .void :=
      ((State.grows_emit rfl).trans grows).result_eq.trans void
    have action : (Instr.ret none).action sim.machine sim.module.strings frame = .leave none := rfl
    rw [State.emit_eq_put rfl] at grows
    rw [evalReturn, sim.point_put stands.owned grows, sim.running_leave action]
    exact .done ⟨rfl, returns⟩
  · obtain ⟨middle, rfl, evaluates⟩ := lowerExpr_evaluates expression (written expression rfl)
      stands.ready stands.takes valueRun
    have valueGrows := (State.grows_emit rfl).trans grows
    refine (lowerExpr_meets expression (written expression rfl) stands valueRun valueGrows).bind ?_
    rintro ⟨computed, store⟩ _ ⟨next, rfl, kept, mirrors, reads⟩
    obtain ⟨datum, rfl, found, isTyped⟩ := reads (typed ▸ notVoid)
    have action : (Instr.ret (some value)).action sim.machine sim.module.strings next =
        .leave (some datum) := by
      simp only [Instr.action, found]
    rw [State.emit_eq_put rfl] at grows
    rw [sim.point_put evaluates.ready.sound.owned grows, sim.running_leave action]
    exact .done ⟨rfl, isTyped.trans (typed.trans valueGrows.result_eq.symm)⟩

/-- The code of a jump to a block of the innermost loop comes there. -/
theorem meets_jump {target : BlockName}
    (stands : sim.Stands before context contexts (layer :: layers) frame store.scopes)
    (given : frame.arguments = arguments) (grows : (before.state.jump target).Grows sim.final) :
    ∃ next, sim.point before.state frame store.trace = sim.entering target.id next store.trace ∧
      next.arguments = arguments ∧ next.Mirrors layers store.scopes.tail :=
  ⟨frame, sim.point_jump stands.owned grows, given, stands.mirrors.pop⟩

end Leaving

section Recursion

variable (sim) in
/-- The code of a statement does what the statement does, wherever it is lowered. -/
def Runs (statement : Stmt) : Prop :=
  ∀ {loop : Option LoopTargets} {context : Nat} {contexts : List Nat} {before : Draft}
    {last : State}
    {frame : Frame Double} {store : Store Double} {layer : Layer} {layers : List Layer}
    {arguments : List (Datum Double)} {result : BasicType} {inLoop : Bool} {outer : Env}
    {own own' : Statics.Scope},
    sim.Stands before context contexts (layer :: layers) frame store.scopes →
    frame.arguments = arguments → before.Loops loop → layer.map Prod.fst = own.names →
    Admits result inLoop outer own statement own' →
    lowerStmt context loop statement before.state = .ok ((), last) → last.Grows sim.final →
    Meets sim.depth sim.rounds
      (evalStmt sim.machine sim.declared sim.call sim.rounds statement store)
      (sim.point before.state frame store.trace)
      (sim.Signals loop arguments (fun next store => next.Mirrors layers store.scopes.tail)
        (sim.Passed last context contexts arguments layers fun layer' =>
          layer'.map Prod.fst = own'.names ∧ (statement.declares = false → layer' = layer)))

/-- A statement without a declaration keeps the innermost layer. -/
theorem meets_plain {statement : Stmt} {result : BasicType} {inLoop : Bool} {outer : Env}
    {own own' : Statics.Scope} {turned : Frame Double → Store Double → Prop}
    {run : Run Double (Signal Double × Store Double)} (written : statement.Written)
    (plain : statement.declares = false) (admits : Admits result inLoop outer own statement own')
    (names : layer.map Prod.fst = own.names)
    (meets : Meets depth blocks run goal (sim.Signals loop arguments turned
      (sim.Passed last context contexts arguments layers (· = layer)))) :
    Meets depth blocks run goal (sim.Signals loop arguments turned
      (sim.Passed last context contexts arguments layers fun layer' =>
        layer'.map Prod.fst = own'.names ∧ (statement.declares = false → layer' = layer))) := by
  refine meets_pass meets (fun _ _ holds => holds) ?_
  rintro store onward ⟨takes, _, next, rfl, shown⟩
  rw [admits.own_eq statement written plain]
  exact ⟨onward, .refl _, takes, _, next, ⟨names, fun _ => rfl⟩, shown⟩

variable (sim) in
/-- The code of what stands behind `else` does what it says, wherever it is lowered. -/
def Alternates (alternative : Stmt) : Prop :=
  ∀ {loop : Option LoopTargets} {context : Nat} {contexts : List Nat} {layer : Layer}
    {layers : List Layer} {result : BasicType} {inLoop : Bool} {outer : Env}
    {own own' : Statics.Scope},
    Admits result inLoop outer own alternative own' → layer.map Prod.fst = own.names →
    sim.Acts loop context contexts layer layers (lowerAlternative context loop alternative)
      (evalStmt sim.machine sim.declared sim.call sim.rounds alternative)

-- The equations of the two functions are made here, once, for all the cases below.
attribute [local simp] evalStmt evalStmts in
theorem block_alternates {opening closing : Token} {body : List Stmt} (runs : sim.RunsAll body) :
    sim.Alternates (.block opening body closing) := by
  intro loop context contexts layer layers result inLoop outer own own' admits names before
    last frame store arguments stands given loops run grows
  cases admits with
  | block inner =>
      rw [evalStmt]
      exact runs.acts inner stands given loops run grows

theorem conditional_alternates {first : Position} {condition : Expr} {opening closing : Token}
    {consequent : List Stmt} {other : Option Stmt}
    (runs : sim.Runs (.conditional first condition opening consequent closing other)) :
    sim.Alternates (.conditional first condition opening consequent closing other) := by
  intro loop context contexts layer layers result inLoop outer own own' admits names before
    last frame store arguments stands given loops run grows
  refine meets_pass (runs stands given loops names admits run grows) (fun _ _ holds => holds) ?_
  rintro store onward ⟨takes, layer, next, fits, shown⟩
  exact ⟨onward, .refl _, takes, layer, next, fits.2 rfl, shown⟩

theorem variable_runs {declaration : VarDecl} (written : declaration.Written) :
    sim.Runs (.variable declaration) := by
  intro loop context contexts before last frame store layer layers arguments result inLoop outer own
    own' stands given loops names admits run grows
  rw [lowerStmt, openBlock_bind_ok, opened_of_isOpen stands.takes] at run
  rw [evalStmt]
  cases admits with
  | «variable» introduces fresh =>
      refine (lowerVariable_meets written stands given (names ▸ fresh) run grows).bind ?_
      rintro store onward ⟨takes, inner, next, named, shown⟩
      refine .done ⟨takes, inner, next, ⟨?_, nofun⟩, shown⟩
      rw [named, names, Statics.Scope.names, Statics.Scope.names, List.map_append]
      rfl

theorem expression_runs {statement : ExprStmt} (written : statement.expression.Written) :
    sim.Runs (.expression statement) := by
  intro loop context contexts before last frame store layer layers arguments result inLoop outer own
    own' stands given loops names admits run grows
  refine meets_plain written rfl admits names ?_
  rw [lowerStmt, openBlock_bind_ok, opened_of_isOpen stands.takes] at run
  obtain ⟨value, _, valueRun, finished⟩ := bind_ok.mp run
  obtain rfl := (Prod.mk.inj (pure_ok.mp finished)).2
  obtain ⟨after, rfl, evaluates⟩ :=
    lowerExpr_evaluates statement.expression written stands.ready stands.takes valueRun
  rw [evalStmt]
  refine (lowerExpr_meets statement.expression written stands valueRun grows).bind ?_
  rintro ⟨computed, store⟩ onward yields
  have passed := yields.passed stands given evaluates
  exact .done passed

theorem block_runs {opening closing : Token} {body : List Stmt} (written : Stmt.AllWritten body)
    (runs : sim.RunsAll body) : sim.Runs (.block opening body closing) := by
  intro loop context contexts before last frame store layer layers arguments result inLoop outer own
    own' stands given loops names admits run grows
  refine meets_plain written rfl admits names ?_
  rw [lowerStmt, openBlock_bind_ok, opened_of_isOpen stands.takes] at run
  rw [evalStmt]
  cases admits with
  | block inner => exact runs.acts inner stands given loops run grows

section Conditionals

variable {first : Position} {condition : Expr} {opening closing : Token} {consequent : List Stmt}

theorem when_runs (conditionWritten : condition.Written) (written : Stmt.AllWritten consequent)
    (runs : sim.RunsAll consequent) :
    sim.Runs (.conditional first condition opening consequent closing none) := by
  intro loop context contexts before last frame store layer layers arguments result inLoop outer own
    own' stands given loops names admits run grows
  refine meets_plain ⟨conditionWritten, written⟩ rfl admits names ?_
  obtain ⟨value, _, valueRun, isTruth, armRun⟩ := lowerStmt_when_ok run
  rw [opened_of_isOpen stands.takes] at valueRun
  obtain ⟨middle, rfl, evaluates⟩ :=
    lowerExpr_evaluates condition conditionWritten stands.ready stands.takes valueRun
  have usable := evaluates.usable (by simp [isTruth])
  have inLoop := evaluates.course.loops loops
  obtain ⟨after, rfl, passes, -⟩ := lowerWhen_course evaluates.ready evaluates.takes inLoop usable
    isTruth (LowerableAll.passes (lowerStmts_course consequent written)) armRun
  cases admits with
  | when tests inner =>
      rw [evalStmt]
      refine (meets_condition conditionWritten stands valueRun isTruth
        (passes.course.grows.trans grows)).bind ?_
      rintro ⟨flag, store⟩ _ ⟨next, rfl, kept, mirrors, found⟩
      exact lowerWhen_meets (stands.behind evaluates mirrors) (kept.arguments.trans given) inLoop
        usable isTruth found grows (LowerableAll.passes (lowerStmts_course consequent written))
          (runs.acts inner) armRun

theorem choice_runs {alternative : Stmt} (conditionWritten : condition.Written)
    (written : Stmt.AllWritten consequent) (isAlternative : alternative.IsAlternative)
    (otherWritten : alternative.Written) (runs : sim.RunsAll consequent)
    (alternates : sim.Alternates alternative) :
    sim.Runs (.conditional first condition opening consequent closing (some alternative)) := by
  intro loop context contexts before last frame store layer layers arguments result inLoop outer own
    own' stands given loops names admits run grows
  refine meets_plain ⟨conditionWritten, written, isAlternative, otherWritten⟩ rfl admits names ?_
  obtain ⟨value, _, valueRun, isTruth, armRun⟩ := lowerStmt_choice_ok run
  rw [opened_of_isOpen stands.takes] at valueRun
  obtain ⟨middle, rfl, evaluates⟩ :=
    lowerExpr_evaluates condition conditionWritten stands.ready stands.takes valueRun
  have usable := evaluates.usable (by simp [isTruth])
  have inLoop := evaluates.course.loops loops
  have otherPasses : PassesAll sim.signature? context loop
      (lowerAlternative context loop alternative) := alternative_passes isAlternative otherWritten
  obtain ⟨after, rfl, passes, -⟩ := lowerChoice_course evaluates.ready evaluates.takes inLoop usable
    isTruth (LowerableAll.passes (lowerStmts_course consequent written)) otherPasses armRun
  cases admits with
  | choice tests inner other =>
      rw [evalStmt]
      refine (meets_condition conditionWritten stands valueRun isTruth
        (passes.course.grows.trans grows)).bind ?_
      rintro ⟨flag, store⟩ _ ⟨next, rfl, kept, mirrors, found⟩
      exact lowerChoice_meets (stands.behind evaluates mirrors) (kept.arguments.trans given) inLoop
        usable isTruth found grows (LowerableAll.passes (lowerStmts_course consequent written))
        otherPasses (runs.acts inner) (alternates other names) armRun

end Conditionals

theorem loop_runs {keyword opening closing : Token} {start : Option LoopStart}
    {condition advance : Option Expr} {body : List Stmt}
    (written : (Stmt.loop keyword start condition advance opening body closing).Written)
    (runs : sim.RunsAll body) :
    sim.Runs (.loop keyword start condition advance opening body closing) := by
  intro loop context contexts before last frame store layer layers arguments result inLoop outer own
    own' stands given loops names admits run grows
  refine meets_plain written rfl admits names ?_
  obtain ⟨_, startRun, roundsRun⟩ := lowerStmt_loop_ok run
  rw [opened_of_isOpen stands.takes] at startRun roundsRun
  rw [evalStmt]
  cases admits with
  | loop starts tests advances inner =>
      exact lowerLoop_meets runs written.1 written.2.1 written.2.2.1 written.2.2.2 inner
        stands given startRun roundsRun grows

theorem return_runs {first : Position} {value : Option Expr} {semicolon : Token}
    (written : ∀ expression ∈ value, expression.Written) :
    sim.Runs (.return_ first value semicolon) := by
  intro loop context contexts before last frame store layer layers arguments result inLoop outer own
    own' stands given loops names admits run grows
  rw [lowerStmt, openBlock_bind_ok, opened_of_isOpen stands.takes] at run
  rw [evalStmt]
  exact lowerReturn_meets written stands run grows

theorem break_runs (keyword : Token) : sim.Runs (.break_ keyword) := by
  intro loop context contexts before last frame store layer layers arguments result inLoop outer own
    own' stands given loops names admits run grows
  unfold lowerStmt at run
  rw [openBlock_bind_ok, opened_of_isOpen stands.takes] at run
  rw [evalStmt]
  cases loop with
  | none => exact absurd run refuse_ok
  | some targets =>
      obtain ⟨-, rfl⟩ := Prod.mk.inj (jump_ok.mp run)
      exact .done ⟨targets, rfl, meets_jump stands given grows⟩

theorem continue_runs (keyword : Token) : sim.Runs (.continue_ keyword) := by
  intro loop context contexts before last frame store layer layers arguments result inLoop outer own
    own' stands given loops names admits run grows
  unfold lowerStmt at run
  rw [openBlock_bind_ok, opened_of_isOpen stands.takes] at run
  rw [evalStmt]
  cases loop with
  | none => exact absurd run refuse_ok
  | some targets =>
      obtain ⟨-, rfl⟩ := Prod.mk.inj (jump_ok.mp run)
      exact .done ⟨targets, rfl, meets_jump stands given grows⟩

/-- No function is lowered inside another one. -/
theorem function_runs (first : Position) : sim.Runs (.function first) := by
  intro loop context contexts before last frame store layer layers arguments result inLoop outer own
    own' stands given loops names admits run grows
  cases admits

theorem nil_runs : sim.RunsAll [] := by
  intro loop context contexts before last frame store layer layers arguments result inLoop outer own
    own' stands given loops names admits run grows
  obtain ⟨-, rfl⟩ := Prod.mk.inj (pure_ok.mp run)
  exact .done ⟨stands.takes, layer, frame, trivial, rfl, given, stands.binds, stands.mirrors⟩

theorem cons_runs {statement : Stmt} {rest : List Stmt}
    (written : Stmt.AllWritten (statement :: rest))
    (runs : sim.Runs statement) (runsRest : sim.RunsAll rest) :
    sim.RunsAll (statement :: rest) := by
  intro loop context contexts before last frame store layer layers arguments result inLoop outer own
    own' stands given loops names admits run grows
  rw [lowerStmts] at run
  obtain ⟨_, _, firstRun, restRun⟩ := bind_ok.mp run
  obtain ⟨middle, rfl, first⟩ := lowerStmt_lowered statement written.1 stands.ready loops firstRun
  have inLoop := first.course.loops loops
  obtain ⟨after, rfl, course, -⟩ :=
    lowerStmts_course rest written.2 first.course.ready inLoop restRun
  cases admits with
  | cons admitsFirst admitsRest =>
      rw [evalStmts]
      refine (runs stands given loops names admitsFirst firstRun (course.grows.trans grows)).bind ?_
      rintro ⟨signal, store⟩ onward shown
      cases signal with
      | normal =>
          obtain ⟨takes, layer', next, ⟨named, -⟩, rfl, given, binds, mirrors⟩ := shown
          exact runsRest ⟨first.course.ready, takes, binds, mirrors⟩ given inLoop named
            admitsRest restRun grows
      | broke => exact .done shown
      | continued => exact .done shown
      | returned value => exact .done shown

mutual

/-- **The code of a statement does what the statement does.** -/
theorem lowerStmt_runs : ∀ statement : Stmt, statement.Written → sim.Runs statement
  | .expression _, written => expression_runs written
  | .variable _, written => variable_runs written
  | .block _ body _, written => block_runs written (lowerStmts_runs body written)
  | .conditional _ _ _ consequent _ none, written =>
      when_runs written.1 written.2 (lowerStmts_runs consequent written.2)
  | .conditional _ _ _ consequent _ (some (.block _ body _)), written =>
      choice_runs written.1 written.2.1 written.2.2.1 written.2.2.2
        (lowerStmts_runs consequent written.2.1)
          (block_alternates (lowerStmts_runs body written.2.2.2))
  | .conditional _ _ _ consequent _ (some (.conditional first test opening arm closing other)),
      written =>
      choice_runs written.1 written.2.1 written.2.2.1 written.2.2.2
        (lowerStmts_runs consequent written.2.1) (conditional_alternates
          (lowerStmt_runs (.conditional first test opening arm closing other) written.2.2.2))
  | .conditional _ _ _ _ _ (some (.expression _)), written
  | .conditional _ _ _ _ _ (some (.variable _)), written
  | .conditional _ _ _ _ _ (some (.loop ..)), written
  | .conditional _ _ _ _ _ (some (.return_ ..)), written
  | .conditional _ _ _ _ _ (some (.break_ _)), written
  | .conditional _ _ _ _ _ (some (.continue_ _)), written
  | .conditional _ _ _ _ _ (some (.function _)), written => written.2.2.1.elim
  | .loop _ _ _ _ _ body _, written => loop_runs written (lowerStmts_runs body written.2.2.2)
  | .return_ _ _ _, written => return_runs written
  | .break_ keyword, _ => break_runs keyword
  | .continue_ keyword, _ => continue_runs keyword
  | .function first, _ => function_runs first

/-- **The code of statements does what the statements do.** -/
theorem lowerStmts_runs : ∀ statements : List Stmt, Stmt.AllWritten statements →
    sim.RunsAll statements
  | [], _ => nil_runs
  | statement :: rest, written =>
      cons_runs written (lowerStmt_runs statement written.1) (lowerStmts_runs rest written.2)

end

end Recursion


end Simulation

end Lowering

end ScriptCompiler
