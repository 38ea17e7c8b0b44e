import ScriptCompiler.Proofs.Lowering.BuiltModule
import ScriptCompiler.Proofs.Preservation.Statements

/-!
# Running the code of functions

A call begins in the entry block with the arguments.  The statements at top level come first if they
belong to the function, each parameter gets a slot that is filled with its argument, and behind the
body every open block returns the zero of the result type.  So a function that is lowered does what
its source does (`Lowers.meets`).
-/

namespace ScriptCompiler

open Statics in
/-- The statements of a function are well formed. -/
structure Semantics.SourceFunction.Admitted (source : Semantics.SourceFunction) : Prop where
  /-- So are the statements at top level. -/
  topLevel : ∃ (result : BasicType) (outer : Env) (own : Statics.Scope),
    AdmitsAll result false outer [] (source.topLevel.getD []) own
  /-- The body sees the parameters. -/
  body : ∃ (result : BasicType) (outer : Env) (own own' : Statics.Scope),
    own.names = source.params ∧ AdmitsAll result false outer own source.body own'

namespace Lowering.Simulation

open IR Semantics Bounded Build

variable {Double : Type} {sim : Simulation Double} {before ended after : Draft} {state last : State}
  {context : Nat} {contexts : List Nat} {layer : Layer} {layers : List Layer} {frame : Frame Double}
  {scope : Semantics.Scope Double} {scopes : List (Semantics.Scope Double)} {store : Store Double}
  {arguments data : List (Datum Double)} {trace : Trace Double} {depth blocks : Nat}
  {onward : Bounded Double}

variable (sim) in
/-- The result of a function ends its run, and is what the signature says. -/
def Leaves (result : Option (Datum Double) × Trace Double) (onward : Bounded Double) : Prop :=
  onward = const (.done result) ∧ Returned sim.final.function.result result.1

section Beginning

variable {name : Bytes} {params : List (Bytes × BasicType)} {result : BasicType}

/-- At the beginning of a function there are no variables. -/
theorem stands_begin (idle : state.Idle) (plain : state.Plain sim.signature? context)
    (empty : ∀ scope ∈ scopes, scope = []) :
    sim.Stands (Draft.begin state (.ofSignature name params result)) context [] [[]]
      { arguments } ([] :: scopes) where
  ready := Draft.begin_ready idle plain
  takes := Draft.begin_isOpen
  binds :=
    { layered := .cons nofun (fun other => plain.functions other) .nil
      nodup := List.nodup_nil
      below := nofun
      names := by simp }
  mirrors := .inner .nil (.outermost empty)

/-- A call begins in the entry block, which is empty at first. -/
theorem leads_begin (grows : (state.begin (.ofSignature name params result)).Grows sim.final) :
    (sim.entering Function.entry frame trace).Leads
      (sim.point (state.begin (.ofSignature name params result)) frame trace) := by
  have below : 0 < sim.final.function.nextBlock :=
    Nat.lt_of_lt_of_le Nat.zero_lt_one grows.nextBlock_le
  change (sim.entering (BlockName.mk Function.entry []).id frame trace).Leads
    (sim.point ((state.begin (.ofSignature name params result)).enter ⟨Function.entry, []⟩)
      frame trace)
  exact sim.leads_entering below (code_ofSignature _)

/-- A function does what the statements do that it begins with. -/
theorem meets_begin (idle : state.Idle) (plain : state.Plain sim.signature? context)
    {statements : List Stmt} (written : Stmt.AllWritten statements) {expected : BasicType}
    {outer : Statics.Env} {own : Statics.Scope}
    (admits : Statics.AdmitsAll expected false outer [] statements own)
    (run : lowerStmts context none statements (state.begin (.ofSignature name params result)) =
      .ok ((), last))
    (begins : (state.begin (.ofSignature name params result)).Grows sim.final)
    (grows : last.Grows sim.final) (empty : ∀ scope ∈ scopes, scope = []) :
    Meets sim.depth sim.rounds
      (evalStmts sim.machine sim.declared sim.call sim.rounds statements ⟨[] :: scopes, trace⟩)
      (sim.entering Function.entry { arguments } trace)
      (sim.Signals none arguments (fun next store => next.Mirrors [] store.scopes.tail)
        (sim.Passed last context [] arguments [] fun _ => True)) := by
  have stands : sim.Stands (Draft.begin state (.ofSignature name params result)) context [] [[]]
      { arguments } (Store.mk ([] :: scopes) trace).scopes := stands_begin idle plain empty
  have loops : (Draft.begin state (.ofSignature name params result)).Loops none := by
    simp [Draft.Loops]
  exact .lead (leads_begin begins)
    (lowerStmts_runs statements written stands rfl loops rfl admits run grows)

end Beginning

section Parameters

/-- Each parameter gets a slot that holds its argument. -/
theorem stands_spilled {params : List (Param × Place)}
    (stands : sim.Stands before context contexts (layer :: layers) frame (scope :: scopes))
    (given : frame.arguments = arguments) (spills : Spills before.state.function params)
    (held : List.Forall₂ (fun entry datum => arguments[entry.2.id]? = some datum ∧
      datum.type = entry.2.type) params data)
    (names : (layer.map Prod.fst ++ params.map fun entry => entry.1.name.name).Nodup)
    (run : spillParams context params before.state = .ok ((), last))
      (grows : last.Grows sim.final) :
    ∃ after layer' next, Draft.state after = last ∧
      (∀ trace, sim.point before.state frame trace = sim.point last next trace) ∧
      next.arguments = arguments ∧
      layer'.map Prod.fst = layer.map Prod.fst ++ params.map (fun entry => entry.1.name.name) ∧
      sim.Stands after context contexts (layer' :: layers) next
        ((scope ++ (params.map fun entry => entry.1.name.name).zip data) :: scopes) := by
  induction held generalizing before layer frame scope with
  | nil =>
      obtain ⟨-, rfl⟩ := Prod.mk.inj (pure_ok.mp run)
      exact ⟨before, layer, frame, rfl, fun _ => rfl, given, by simp, by simpa using stands⟩
  | @cons entry datum rest data argument others ih =>
      obtain ⟨param, place⟩ := entry
      obtain ⟨owned, table, declares, restRun⟩ := spillParams_cons_ok run
      obtain ⟨member, isValue⟩ := spills _ List.mem_cons_self
      have usable : before.Usable sim.signature? (.param place) := usable_param member isValue
      obtain ⟨course, opened, -⟩ :=
        Course.hold stands.ready usable rfl ⟨_, rfl⟩ declares stands.takes
      have spills : Spills
          ((before.state.withTable table).hold owned place.type (.param place)).function rest := by
        intro entry within
        obtain ⟨member, isValue⟩ := spills entry (List.mem_cons_of_mem _ within)
        exact ⟨course.grows.params_eq ▸ member, isValue⟩
      obtain ⟨_, rfl, later, -⟩ := spillParams_course course.ready opened spills restRun
      have fresh : (paramSymbol param place).name ∉ layer.map Prod.fst := fun within =>
        (List.nodup_append.mp names).2.2 _ within _ List.mem_cons_self rfl
      have found : (Value.param place).datum? sim.machine sim.module.strings frame =
        some datum := by
        rw [Value.datum?, given, argument.1]
      obtain ⟨slot, held, same, sameArguments, holds⟩ :=
        stands.hold usable rfl ⟨_, rfl⟩ declares fresh
        found argument.2 (later.grows.trans grows)
      obtain ⟨after, layer', next, isLast, sameRest, given, named, holds⟩ := ih holds
        (sameArguments.trans given) spills (by simpa [paramSymbol] using names) restRun
      refine ⟨after, layer', next, isLast, fun trace => (same trace).trans (sameRest trace),
        given, ?_,
        ?_⟩
      · simpa [paramSymbol] using named
      · simpa [paramSymbol] using holds

/-- Parameters are numbered in order, so that each finds its argument. -/
theorem held_ofSignature {name : Bytes} {written : List Param} {params : List (Bytes × BasicType)}
    {result : BasicType} (length : written.length = params.length)
    (types : arguments.map Datum.type = params.map Prod.snd) :
    List.Forall₂ (fun entry datum => arguments[entry.2.id]? = some datum ∧
      datum.type = entry.2.type)
      (written.zip (Function.ofSignature name params result).params) arguments := by
  have places : (Function.ofSignature name params result).params =
      params.mapIdx fun index param => ⟨index, param.1, param.2⟩ := rfl
  have count : arguments.length = params.length := by simpa using congrArg List.length types
  rw [List.forall₂_iff_get]
  refine ⟨by simp [places, length, count], fun index within within' => ?_⟩
  have typed : (arguments.map Datum.type)[index]? = (params.map Prod.snd)[index]? := by rw [types]
  have below : index < params.length := count ▸ within'
  simp only [List.getElem?_map, List.getElem?_eq_getElem within', List.getElem?_eq_getElem below,
    Option.map_some, Option.some.injEq] at typed
  simpa [places] using typed

end Parameters

section Ends

variable {turned : Frame Double → Store Double → Prop}
    {passed : Store Double → Bounded Double → Prop}
  {result : Option (Datum Double) × Trace Double} {fits : Layer → Prop}

/-- Outside of loops, statements end normally or return. -/
theorem Signals.cases {signal : Signal Double}
    (shown : sim.Signals none arguments turned passed (signal, store) onward) :
    (signal = .normal ∧ passed store onward) ∨
      ∃ value, signal = .returned value ∧ sim.Leaves (value, store.trace) onward := by
  cases signal with
  | normal => exact .inl ⟨rfl, shown⟩
  | broke =>
      obtain ⟨_, ⟨⟩, -⟩ := shown
  | continued =>
      obtain ⟨_, ⟨⟩, -⟩ := shown
  | returned value => exact .inr ⟨value, rfl, shown⟩

/-- The zero of a type can be read wherever it has been added. -/
theorem datum?_zeroOf {type : BasicType} (frame : Frame Double) (isValue : type.IsValue)
    (fits : (state.addZero type).strings <+: sim.final.strings) :
    (zeroOf state type).datum? sim.machine sim.module.strings frame =
      zeroDatum sim.machine type := by
  cases type with
  | int | float | bool => rfl
  | string => exact datum?_text frame fits
  | void => exact absurd rfl isValue.1
  | invalid => exact absurd rfl isValue.2

/-- At the end of a body an open block returns the zero of the result type. -/
theorem meets_conclude (finished : Finished sim.signature? ended after)
    (isFinal : after.state = sim.final) (valid : sim.final.function.result ≠ .invalid)
    (passed : sim.Passed ended.state context contexts arguments layers fits store onward) :
    Meets depth blocks (conclude sim.machine sim.final.function.result .normal store) onward
      sim.Leaves := by
  obtain ⟨takes, layer, next, -, rfl, -⟩ := passed
  have closed := finished.closed ended.state.current.id
  have same : ended.state.function.result = sim.final.function.result :=
    isFinal ▸ finished.moves.grows.result_eq.symm
  rw [Closed, if_pos (show ended.state.function.isOpen ended.state.current.id = true from takes),
    isFinal, same] at closed
  obtain ⟨instr, code, returns⟩ := closed
  have rest : sim.rest ended.state = [instr] := by
    rw [Simulation.rest, code, List.drop_left]
  rw [point, rest, conclude]
  rcases returns with ⟨void, rfl⟩ | ⟨notVoid, state, rfl, texts⟩
  · have action : (Instr.ret none).action sim.machine sim.module.strings next = .leave none := rfl
    rw [if_pos (by simpa using void), sim.running_leave action]
    exact .done ⟨rfl, void⟩
  · have found :
      (zeroOf state sim.final.function.result).datum? sim.machine sim.module.strings next =
        zeroDatum sim.machine sim.final.function.result := datum?_zeroOf next ⟨notVoid, valid⟩ texts
    obtain ⟨datum, isZero⟩ : ∃ datum, zeroDatum sim.machine sim.final.function.result =
      some datum :=
      ⟨_, zeroDatum_eq sim.machine ⟨notVoid, valid⟩⟩
    have action : (Instr.ret (some (zeroOf state sim.final.function.result))).action sim.machine
        sim.module.strings next = .leave (some datum) := by
      simp only [Instr.action, found, isZero]
    rw [if_neg (by simpa using notVoid), isZero, sim.running_leave action]
    exact .done ⟨rfl, type_of_zeroDatum isZero⟩

/-- What is left of a function behind its statements. -/
theorem meets_ended {run : Run Double (Signal Double × Store Double)} {goal : Bounded Double}
    (finished : Finished sim.signature? ended after) (isFinal : after.state = sim.final)
    (valid : sim.final.function.result ≠ .invalid)
    (meets : Meets depth blocks run goal (sim.Signals none arguments turned
      (sim.Passed ended.state context contexts arguments layers fits))) :
    Meets depth blocks
      (run.bind fun (signal, store) => conclude sim.machine sim.final.function.result signal store)
      goal sim.Leaves := by
  refine meets.bind ?_
  rintro ⟨signal, store⟩ onward shown
  rcases shown.cases with ⟨rfl, passed⟩ | ⟨value, rfl, leaves⟩
  · exact meets_conclude finished isFinal valid passed
  · exact .done leaves

end Ends

/-- Statements at top level see empty scopes. -/
theorem evalTopLevel_eq (machine : Machine Double) (declared : Bytes → Bool) (call : Call Double)
    (rounds : Nat) (topLevel : Option (List Stmt)) (trace : Trace Double) :
    ∃ scopes : List (Semantics.Scope Double), (∀ scope ∈ scopes, scope = []) ∧
      evalTopLevel machine declared call rounds topLevel trace =
        evalStmts machine declared call rounds (topLevel.getD []) ⟨[] :: scopes, trace⟩ := by
  cases topLevel with
  | none => exact ⟨[], nofun, by simp [evalTopLevel, evalStmts]⟩
  | some statements => exact ⟨[[]], by simp, rfl⟩

end Lowering.Simulation

namespace Lowering

open IR Semantics Bounded Build Simulation

variable {Double : Type} {sim : Simulation Double} {state : State} {arguments : List (Datum Double)}

section Declared

variable {parent : Nat} {prologue : List Stmt} {declared : Declared}
  {params : List (Bytes × BasicType)} {result : BasicType} {middle spilled ended after : Draft}

/-- **The code behind the statements at top level does what the body does with the arguments.** -/
theorem Parts.meets
    (parts : Parts sim.signature? parent prologue declared state middle spilled ended)
    (header : declared.Header params result) (written : Stmt.AllWritten declared.declaration.body)
    (finished : Finished sim.signature? ended after) (isFinal : after.state = sim.final)
    (valid : sim.final.function.result ≠ .invalid) {layer : Layer} {frame : Frame Double}
    {store : Store Double} (stands : sim.Stands middle parent [] [layer] frame store.scopes)
    (given : frame.arguments = arguments) (typed : arguments.map Datum.type = params.map Prod.snd)
    {bodyResult : BasicType} {outer : Statics.Env} {own own' : Statics.Scope}
    (names : own.names = declared.declaration.params.map fun param => param.name.name)
    (admits : Statics.AdmitsAll bodyResult false outer own declared.declaration.body own') :
    Meets sim.depth sim.rounds
      ((evalStmts sim.machine sim.declared sim.call sim.rounds declared.declaration.body
        (store.push ((declared.declaration.params.map fun param => param.name.name).zip
          arguments))).bind
          fun (signal, store) => conclude sim.machine sim.final.function.result signal store)
      (sim.point middle.state frame store.trace) sim.Leaves := by
  have endedGrows : ended.state.Grows sim.final := isFinal ▸ finished.moves.grows
  have spilledGrows := parts.bodyCourse.grows.trans endedGrows
  have inside : sim.Stands (middle.openFunction parent declared) middle.state.nextContext [parent]
      [[], layer] frame ([] :: store.scopes) := stands.openScope
  have opened : sim.point (middle.openFunction parent declared).state frame store.trace =
      sim.point middle.state frame store.trace := sim.point_congr rfl rfl
  have spills : Spills (middle.openFunction parent declared).state.function
      (declared.declaration.params.zip declared.function.params) := by
    have same : (middle.openFunction parent declared).state.function.params =
        declared.function.params := parts.prologueCourse.grows.params_eq
    simpa only [Spills, same] using header.spills
  have held := header.function_eq ▸ held_ofSignature header.aligned.length_eq typed
  obtain ⟨distinct, -⟩ := spillParams_names inside.ready.inside parts.spillRun
  have named : (declared.declaration.params.zip declared.function.params).map
      (fun entry => entry.1.name.name) = declared.declaration.params.map fun param =>
        param.name.name := by
    have firsts := List.map_fst_zip (Nat.le_of_eq header.length_eq)
    rw [← congrArg (List.map fun param : Param => param.name.name) firsts, List.map_map]
    rfl
  obtain ⟨filled, layer', next, isFilled, same, given, isLayer, stands⟩ :=
    stands_spilled inside given spills held (by simpa using distinct) parts.spillRun spilledGrows
  rw [← opened, same, ← isFilled]
  rw [named] at isLayer stands
  exact meets_ended finished isFinal valid (lowerStmts_runs _ written stands given
    (by simp [Draft.Loops]) (isLayer.trans names.symm) admits (isFilled ▸ parts.bodyRun) endedGrows)

/-- **A declared function does what its source does.** -/
theorem lowerFunction_meets {topLevel : Option (List Stmt)} {function : Function}
    (header : declared.Header params result) (idle : state.Idle)
    (plain : state.Plain sim.signature? parent)
    (topLevelWritten : Stmt.AllWritten (topLevel.getD []))
    (bodyWritten : Stmt.AllWritten declared.declaration.body)
    (run : lowerFunction parent (topLevel.getD []) declared state = .ok (function, sim.final))
    (admitted : (sourceFunction topLevel declared.declaration).Admitted)
    (typed : arguments.map Datum.type = sim.final.function.params.map Place.type)
    (trace : Trace Double) :
    Meets sim.depth sim.rounds
      ((sourceFunction topLevel declared.declaration).eval sim.machine sim.declared sim.call
        sim.rounds arguments trace)
      (sim.entering Function.entry { arguments } trace) sim.Leaves := by
  obtain ⟨middle, spilled, ended, after, parts, makes, isFinal, -⟩ :=
    lowerFunction_makes header idle plain topLevelWritten bodyWritten run
  have note : Move sim.signature? True middle (middle.openFunction parent declared) :=
    .note _ (Nat.le_refl _) rfl rfl List.prefix_rfl (.inl rfl)
  have endedGrows : ended.state.Grows sim.final := isFinal ▸ makes.finished.moves.grows
  have middleGrows := note.grows.trans
    (parts.spills.moves.grows.trans (parts.bodyCourse.grows.trans endedGrows))
  have beginGrows : (state.begin (.ofSignature declared.declaration.name.name params result)).Grows
      sim.final := header.function_eq ▸ isFinal ▸ makes.grows
  have sameResult : (sourceFunction topLevel declared.declaration).result =
      sim.final.function.result := (header.result_eq topLevel).trans beginGrows.result_eq.symm
  have valid : sim.final.function.result ≠ .invalid :=
    fun invalid => header.valid (beginGrows.result_eq.symm.trans invalid)
  rw [beginGrows.params_eq] at typed
  have suits := typed.trans (params_ofSignature _ params result).1
  obtain ⟨scopes, empty, isTopLevel⟩ := evalTopLevel_eq sim.machine sim.declared sim.call sim.rounds
    topLevel trace
  obtain ⟨topResult, topOuter, top, admitsTop⟩ := admitted.topLevel
  obtain ⟨bodyResult, outer, own, own', names, admitsBody⟩ := admitted.body
  rw [SourceFunction.eval, sameResult]
  change Meets _ _ (Run.bind (evalTopLevel _ _ _ _ topLevel trace) _) _ _
  rw [isTopLevel]
  refine (meets_begin idle plain topLevelWritten admitsTop (header.function_eq ▸ parts.prologueRun)
    beginGrows middleGrows empty).bind ?_
  rintro ⟨signal, store⟩ onward shown
  rcases shown.cases with ⟨rfl, takes, layer, next, -, rfl, given, binds, mirrors⟩ |
    ⟨value, rfl, leaves⟩
  · exact parts.meets header bodyWritten makes.finished isFinal valid
      ⟨parts.prologueCourse.ready, takes, binds, mirrors⟩ given suits names admitsBody
  · exact .done leaves

end Declared

/-- **The function made for the statements at top level does what they do.** -/
theorem lowerTopLevel_meets {context : Nat} {name : Bytes} {statements : List Stmt}
    {function : Function} (idle : state.Idle) (plain : state.Plain sim.signature? context)
    (written : Stmt.AllWritten statements)
    (run : lowerTopLevel context name statements state = .ok (function, sim.final))
    (admitted : (topLevelFunction name statements).Admitted) (trace : Trace Double) :
    Meets sim.depth sim.rounds
      ((topLevelFunction name statements).eval sim.machine sim.declared sim.call
        sim.rounds arguments trace)
      (sim.entering Function.entry { arguments } trace) sim.Leaves := by
  obtain ⟨ended, after, bodyRun, course, makes, isFinal, -⟩ :=
    lowerTopLevel_makes idle plain written run
  have endedGrows : ended.state.Grows sim.final := isFinal ▸ makes.finished.moves.grows
  have beginGrows : (state.begin (.ofSignature name [] .int)).Grows sim.final :=
    isFinal ▸ makes.grows
  have isInt : sim.final.function.result = .int := beginGrows.result_eq
  obtain ⟨topResult, outer, own, admits⟩ := admitted.topLevel
  rw [SourceFunction.eval]
  change Meets _ _ (Run.bind (evalStmts _ _ _ _ statements _) _) _ _
  refine (meets_begin idle plain written admits bodyRun beginGrows endedGrows (by simp)).bind ?_
  rintro ⟨signal, store⟩ onward shown
  rcases shown.cases with ⟨rfl, passed⟩ | ⟨value, rfl, leaves⟩
  · have concludes : Meets sim.depth sim.rounds
        (conclude sim.machine sim.final.function.result .normal store) onward sim.Leaves :=
      meets_conclude makes.finished isFinal (by simp [isInt]) passed
    rw [isInt] at concludes
    simp only [topLevelFunction, evalStmts, Run.bind_done]
    exact concludes
  · exact .done leaves

section Lowers

variable {signature? : Bytes → Option Signature} {last : State} {source : SourceFunction}
  {function : Function}

theorem Lowers.function_eq (lowers : Lowers signature? state source function last) :
    function = last.function := by
  obtain ⟨_, _, _, after, -, -, rfl, isFunction⟩ := lowers.moves
  exact isFunction

theorem Lowers.numbered (lowers : Lowers signature? state source function last) :
    last.function.Numbered := by
  obtain ⟨_, _, _, after, sound, moves, rfl, -⟩ := lowers.moves
  exact (sound.moves moves).numbered

/-- **A function does what its source does.** -/
theorem Lowers.meets (lowers : Lowers sim.signature? state source function sim.final)
    (admitted : source.Admitted) (typed : arguments.map Datum.type = function.params.map Place.type)
    (trace : Trace Double) :
    Meets sim.depth sim.rounds
      (source.eval sim.machine sim.declared sim.call sim.rounds arguments trace)
      (sim.entering Function.entry { arguments } trace) sim.Leaves := by
  rw [lowers.function_eq] at typed
  cases lowers with
  | own header idle plain topLevelWritten bodyWritten run =>
      exact lowerFunction_meets header idle plain topLevelWritten bodyWritten run admitted
        typed trace
  | topLevel idle plain written run =>
      exact lowerTopLevel_meets idle plain written run admitted trace

end Lowers

end Lowering

end ScriptCompiler
