import ScriptCompiler.Proofs.Lowering.StmtCourse

/-!
# The course of lowering a function

A function starts with an empty entry block.  Behind the statements that it begins with, each
parameter gets a slot, the body follows, and in the end every open block gets a return.  The code
that this makes is sound.  It has no terminator before the end of a block unless a parameter gets
its slot behind one.
-/

namespace ScriptCompiler.Lowering

open IR Build

variable {signature? : Bytes → Option Signature} {context : Nat} {before middle after : Draft}
  {state last : State}

section Steps

/-- The state at the beginning of a function. -/
def State.begin (state : State) (function : Function) : State :=
  { state with
    function
    current := ((function.blocks.head?).map Block.name).getD ⟨Function.entry, []⟩ }

theorem beginFunction_ok {function : Function} {result : Unit × State} :
    beginFunction function state = .ok result ↔ result = ((), state.begin function) := by
  exact ⟨fun run => (Except.ok.inj run).symm, fun same => same ▸ rfl⟩

/-- The state with a return at the end of the current block, of the zero of the result type if there
is one. -/
def State.returnZero (state : State) : State :=
  if state.function.result = .void then state.emit (.ret none)
  else (state.addZero state.function.result).emit (.ret (some (zeroOf state state.function.result)))

/-- The state in which a block has ended. -/
def State.close (state : State) (block : Block) : State :=
  if block.isTerminated then state else (state.enter block.name).returnZero

theorem closeBlocks_ok {blocks : List Block} {result : Unit × State} :
    closeBlocks blocks state = .ok result ↔ result = ((), blocks.foldl State.close state) := by
  induction blocks generalizing state with
  | nil => exact pure_ok
  | cons block rest ih =>
      rw [closeBlocks, List.foldl_cons, State.close]
      cases block.isTerminated with
      | true => simp only [Bool.not_true, Bool.false_eq_true, if_false, if_true, ih]
      | false =>
          by_cases void : state.function.result = .void
          · have same : (state.enter block.name).function.result = .void := void
            simp [bind_ok, enter_ok, get_ok, emit_ok, ih, State.returnZero, same]
          · have same : (state.enter block.name).function.result ≠ .void := void
            simp [bind_ok, enter_ok, get_ok, emit_ok, zeroValue_ok, ih, State.returnZero, same,
              and_assoc]

/-- The state at the end of a function. -/
def State.finish (state : State) : State := state.function.blocks.foldl State.close state

theorem finishFunction_ok {result : Function × State} :
    finishFunction state = .ok result ↔ result = (state.finish.function, state.finish) := by
  simp only [finishFunction, bind_ok, get_ok, closeBlocks_ok, pure_ok, Prod.mk.injEq, and_assoc,
    exists_eq_left, exists_and_left, true_and, exists_const, State.finish]

/-- The symbol of a parameter before its declaration. -/
def paramSymbol (param : Param) (place : Place) : Symbol :=
  { name := param.name.name, kind := .parameter, type := some (.basic place.type),
    position := param.name.first }

theorem spillParams_cons_ok {scope : Nat} {param : Param} {place : Place}
    {rest : List (Param × Place)}
    (run : spillParams scope ((param, place) :: rest) state = .ok ((), last)) :
    ∃ symbol table, state.table.declare scope (paramSymbol param place) = .ok (symbol, table) ∧
      spillParams scope rest ((state.withTable table).hold symbol place.type (.param place)) =
        .ok ((), last) := by
  rw [spillParams] at run
  simp only [bind_ok, onTable_ok, holdValue_ok, Prod.mk.injEq, exists_eq_left, true_and,
    exists_const] at run
  obtain ⟨symbol, _, ⟨-, table, declares, rfl⟩, rest⟩ := run
  exact ⟨symbol, table, declares, rest⟩

theorem lowerFunction_ok {parent : Nat} {prologue : List Stmt} {declared : Declared}
    {function : Function}
    (run : lowerFunction parent prologue declared state = .ok (function, last)) :
    ∃ middle spilled ended : State,
      lowerStmts parent none prologue (state.begin declared.function) = .ok ((), middle) ∧
      spillParams middle.nextContext
        (declared.declaration.params.zip declared.function.params)
        (middle.openScope parent .function declared.declaration.name.name) = .ok ((), spilled) ∧
      lowerStmts middle.nextContext none declared.declaration.body spilled = .ok ((), ended) ∧
      function = ended.finish.function ∧ last = ended.finish := by
  simp only [lowerFunction, bind_ok, beginFunction_ok, openScope_ok, finishFunction_ok,
    Prod.mk.injEq, and_assoc, exists_eq_left, exists_and_left, true_and, exists_const] at run
  obtain ⟨_, middle, prologueRun, -, _, spilled, spillRun, _, ended, bodyRun, rfl, rfl⟩ := run
  exact ⟨middle, spilled, ended, prologueRun, spillRun, bodyRun, rfl, rfl⟩

theorem lowerTopLevel_ok {name : Bytes} {statements : List Stmt} {function : Function}
    (run : lowerTopLevel context name statements state = .ok (function, last)) :
    ∃ ended : State,
      lowerStmts context none statements (state.begin (Function.ofSignature name [] .int)) =
        .ok ((), ended) ∧
      function = ended.finish.function ∧ last = ended.finish := by
  simp only [lowerTopLevel, bind_ok, beginFunction_ok, finishFunction_ok, Prod.mk.injEq,
    exists_eq_left, true_and, exists_const] at run
  obtain ⟨_, ended, bodyRun, rfl, rfl⟩ := run
  exact ⟨ended, bodyRun, rfl, rfl⟩

end Steps

section Beginning

variable {name : Bytes} {params : List (Bytes × BasicType)} {result : BasicType}

theorem code_ofSignature (id : Nat) : (Function.ofSignature name params result).code id = [] := by
  rw [Function.ofSignature, Function.code_newBlock]
  rfl

theorem instrs_ofSignature : (Function.ofSignature name params result).instrs = [] := by
  rw [Function.ofSignature, Function.instrs_newBlock]
  rfl

theorem results_ofSignature : (Function.ofSignature name params result).results = [] := by
  rw [Function.results, instrs_ofSignature, List.filterMap_nil]

theorem numbered_ofSignature : (Function.ofSignature name params result).Numbered :=
  Function.Numbered.newBlock rfl

/-- A context in which every name stands for a function that can be called. -/
structure State.Plain (signature? : Bytes → Option Signature) (state : State) (context : Nat) :
    Prop where
  /-- The context is there. -/
  inside : context < state.nextContext
  /-- There are functions only. -/
  functions : ∀ name, state.meaning? context name = (signature? name).map .function
  /-- Each has a result that can be there. -/
  valid : ∀ name signature, signature? name = some signature → signature.result ≠ .invalid

/-- A state between functions. -/
structure State.Idle (state : State) : Prop where
  /-- The scopes are well formed. -/
  wellScoped : state.WellScoped
  /-- Only the output function is declared. -/
  declared : ∀ external ∈ state.externals, external = formatter

/-- The draft at the beginning of a function: nothing is supplied. -/
def Draft.begin (state : State) (function : Function) : Draft := ⟨state.begin function, fun _ => ∅⟩

theorem Draft.begin_sound (idle : state.Idle) :
    (Draft.begin state (Function.ofSignature name params result)).Sound signature? where
  numbered := numbered_ofSignature
  current_lt := Nat.zero_lt_one
  labels := by
    simp [Draft.begin, State.begin, Function.ofSignature, Function.newBlock, Function.freshLabel,
      requestedLabels, numberedLabel]
  requests_listed := by
    intro label member
    obtain rfl := List.mem_singleton.mp member
    exact List.mem_cons_self
  params_id := by
    intro index place there
    simp only [Draft.begin, State.begin, Function.ofSignature, Function.newBlock,
      List.getElem?_mapIdx, Option.map_eq_some_iff] at there
    obtain ⟨param, -, rfl⟩ := there
    rfl
  params_le := Nat.le_refl _
  results_nodup := by
    simp only [Draft.begin, State.begin, results_ofSignature]
    exact List.nodup_nil
  results_range := by
    simp only [Draft.begin, State.begin, results_ofSignature]
    exact nofun
  typed := by
    simp only [Draft.begin, State.begin, instrs_ofSignature]
    exact fun _ member => (List.not_mem_nil member).elim
  start := rfl
  covered := by
    intro id
    simp only [Draft.begin, State.begin, code_ofSignature]
    trivial
  targets := by
    intro id block found instr within
    rw [← Function.code_eq found] at within
    simp only [Draft.begin, State.begin, code_ofSignature] at within
    cases within
  predecessors := by
    intro block found
    have member := Function.mem_of_block? found
    simp only [Draft.begin, State.begin, Function.ofSignature, Function.newBlock, List.nil_append,
      List.mem_singleton] at member
    rw [member]
  externals := by
    simp only [Draft.begin, State.begin, instrs_ofSignature]
    exact fun _ member => (List.not_mem_nil member).elim
  declared := idle.declared

theorem Draft.begin_ready (idle : state.Idle) (plain : state.Plain signature? context) :
    (Draft.begin state (Function.ofSignature name params result)).Ready signature? context where
  sound := Draft.begin_sound idle
  wellScoped := idle.wellScoped.congr rfl rfl
  inside := plain.inside
  filled := by
    intro other place means
    obtain ⟨signature, -, isFunction⟩ :=
      Option.map_eq_some_iff.mp ((plain.functions other).symm.trans means)
    cases isFunction
  callable := by
    intro other signature means
    obtain ⟨_, known, isFunction⟩ :=
      Option.map_eq_some_iff.mp ((plain.functions other).symm.trans means)
    cases isFunction
    exact ⟨known, plain.valid other signature known⟩

theorem Draft.begin_isOpen :
    (Draft.begin state (Function.ofSignature name params result)).state.isOpen = true := by
  have owned : ((Function.ofSignature name params result).block? Function.entry).isSome :=
    numbered_ofSignature.block?_isSome.mpr Nat.zero_lt_one
  exact Function.isOpen_of_nil owned (code_ofSignature _)

theorem State.begin_shaped : (state.begin (Function.ofSignature name params result)).Shaped := by
  intro id
  simp only [State.begin, code_ofSignature]
  exact fun _ member => (List.not_mem_nil member).elim

end Beginning

section Spilling

variable {scope : Nat}

/-- Parameters that belong to a function and have values. -/
def Spills (function : Function) (params : List (Param × Place)) : Prop :=
  ∀ entry ∈ params, entry.2 ∈ function.params ∧ entry.2.type.IsValue

theorem usable_param {place : Place} (member : place ∈ before.state.function.params)
    (isValue : place.type.IsValue) : before.Usable signature? (.param place) :=
  ⟨⟨isValue, member, rfl⟩, by simp [Value.demands], isValue⟩

/-- Behind an open block, parameters get their slots by a course. -/
theorem spillParams_course {params : List (Param × Place)} (ready : before.Ready signature? scope)
    (takes : before.state.isOpen = true) (spills : Spills before.state.function params)
    (run : spillParams scope params before.state = .ok ((), last)) :
    ∃ after : Draft, after.state = last ∧ Course signature? scope before after ∧
      after.state.isOpen = true := by
  induction params generalizing before with
  | nil =>
      obtain ⟨-, rfl⟩ := Prod.mk.inj (pure_ok.mp run)
      exact ⟨before, rfl, .refl ready, takes⟩
  | cons entry rest ih =>
      obtain ⟨param, place⟩ := entry
      obtain ⟨owned, table, declares, restRun⟩ := spillParams_cons_ok run
      obtain ⟨member, isValue⟩ := spills _ List.mem_cons_self
      obtain ⟨course, opened, -⟩ :=
        Course.hold ready (usable_param member isValue) rfl ⟨_, rfl⟩ declares takes
      obtain ⟨after, same, later, isOpen⟩ := ih course.ready opened (fun entry within => by
        obtain ⟨member, isValue⟩ := spills entry (List.mem_cons_of_mem _ within)
        exact ⟨course.grows.params_eq ▸ member, isValue⟩) restRun
      exact ⟨after, same, course.trans later, isOpen⟩

/-- What giving parameters their slots comes to, tidy or not. -/
structure Spilled (signature? : Bytes → Option Signature) (scope : Nat) (before after : Draft) :
    Prop where
  /-- There are moves. -/
  moves : Moves signature? False before after
  /-- More can be lowered. -/
  ready : after.Ready signature? scope
  /-- Scopes are added. -/
  nextContext_le : before.state.nextContext ≤ after.state.nextContext
  /-- Outer contexts are unchanged. -/
  outer : ∀ other < scope, after.state.meaning? other = before.state.meaning? other

theorem Course.spilled (course : Course signature? scope before after) :
    Spilled signature? scope before after :=
  ⟨course.moves.mono False.elim, course.ready, course.nextContext_le, course.outer⟩

theorem Spilled.trans (first : Spilled signature? scope before middle)
    (second : Spilled signature? scope middle after) : Spilled signature? scope before after :=
  ⟨Relation.ReflTransGen.trans first.moves second.moves, second.ready,
    first.nextContext_le.trans second.nextContext_le,
    fun other below => (second.outer other below).trans (first.outer other below)⟩

/-- A terminator before the end of a block stays there. -/
theorem State.Shaped.of_grows {earlier later : State} (shaped : later.Shaped)
    (grows : earlier.Grows later) : earlier.Shaped :=
  fun id => (shaped id).of_initial (grows.code_extends id)

/-- Behind a block that has ended, the first parameter gets its slot behind the terminator. -/
theorem spillParams_closed {params : List (Param × Place)} (given : params ≠ [])
    (ready : before.Ready signature? scope) (closed : before.state.isOpen = false)
    (spills : Spills before.state.function params)
    (run : spillParams scope params before.state = .ok ((), last)) :
    ∃ after : Draft, after.state = last ∧ Spilled signature? scope before after ∧
      ¬ after.state.Shaped ∧ after.state.isOpen = true := by
  cases params with
  | nil => exact absurd rfl given
  | cons entry rest =>
      obtain ⟨param, place⟩ := entry
      obtain ⟨owned, table, declares, restRun⟩ := spillParams_cons_ok run
      obtain ⟨member, isValue⟩ := spills _ List.mem_cons_self
      obtain ⟨declared, -⟩ := ready.declaration rfl ⟨_, rfl⟩ declares (.param place)
      obtain ⟨moves, ready', opened, -⟩ := ready.hold (usable_param member isValue) rfl ⟨_, rfl⟩
        declares False.elim
      obtain ⟨after, same, later, isOpen⟩ :=
        spillParams_course ready' opened (fun entry within => by
        obtain ⟨member, isValue⟩ := spills entry (List.mem_cons_of_mem _ within)
        exact ⟨moves.grows.params_eq ▸ member, isValue⟩) restRun
      have first : Spilled signature? scope before
          ⟨(before.state.withTable table).hold owned place.type (.param place), before.known⟩ :=
        ⟨moves, ready', declared.nextContext_eq.ge,
          fun other below => declared.meaning?_of_lt ready.wellScoped below⟩
      refine ⟨after, same, first.trans later.spilled, fun shaped => ?_, isOpen⟩
      -- the terminator that closes the block stands before the slot
      have early : IR.Shaped
          (((before.state.withTable table).hold owned place.type (.param place)).function.code
            before.state.current.id) := shaped.of_grows later.grows _
      have kept :
        ((before.state.withTable table).hold owned place.type (.param place)).function.code
          before.state.current.id = before.state.function.code before.state.current.id ++
            [Instr.alloca (before.state.newPlace (paramSymbol param place) place.type),
              .store (.slot (before.state.newPlace (paramSymbol param place) place.type))
                (.param place)] := by
        rw [show (before.state.withTable table).hold owned place.type (.param place) = _ from
          State.hold_eq declares (.param place)]
        exact State.code_keep ready.sound.owned _ (.param place)
      rw [kept] at early
      have plain :=
        shaped_append_singleton.mp (early.of_initial (List.prefix_append_right_inj _ |>.mpr
        (List.prefix_append [_] [_])))
      have isOpen := Function.isOpen_iff.mpr ⟨ready.sound.owned, fun instr isLast =>
        plain instr (List.mem_of_getLast? isLast)⟩
      exact absurd (isOpen.symm.trans closed) (by decide)

/-- Parameters that get their slots have different names. -/
theorem spillParams_names {params : List (Param × Place)} (inside : scope < state.nextContext)
    (run : spillParams scope params state = .ok ((), last)) :
    (params.map fun entry => entry.1.name.name).Nodup ∧
      ∀ entry ∈ params, state.table.local? scope entry.1.name.name = none := by
  induction params generalizing state with
  | nil => simp
  | cons entry rest ih =>
      obtain ⟨param, place⟩ := entry
      obtain ⟨owned, table, declares, restRun⟩ := spillParams_cons_ok run
      obtain ⟨absent, -, tables⟩ := ScopeTable.declare_ok declares
      have inside' :
          scope < ((state.withTable table).hold owned place.type (.param place)).nextContext := by
        have same : table.records.length = state.table.records.length := by
          rw [tables, ScopeTable.records_length_update]
        exact Nat.lt_of_lt_of_eq inside same.symm
      obtain ⟨nodup, free⟩ := ih inside' restRun
      have later : ∀ entry ∈ rest, entry.1.name.name ≠ param.name.name ∧
          state.table.local? scope entry.1.name.name = none := by
        intro entry member
        have none := free entry member
        rw [show ((state.withTable table).hold owned place.type (.param place)).table =
          table from rfl,
          ScopeTable.local?_declare declares inside] at none
        split at none
        · cases none
        · rename_i differ
          exact ⟨differ, none⟩
      refine ⟨List.nodup_cons.mpr ⟨fun member => ?_, nodup⟩, fun entry member => ?_⟩
      · obtain ⟨entry, within, same⟩ := List.mem_map.mp member
        exact (later entry within).1 same
      · rcases List.mem_cons.mp member with rfl | within
        · exact absent
        · exact (later entry within).2

end Spilling

section Closing

/-- A return of the zero of a type, or of nothing. -/
def ReturnsZero (strings : List Bytes) (result : BasicType) (instr : Instr) : Prop :=
  (result = .void ∧ instr = .ret none) ∨
    (result ≠ .void ∧ ∃ state : State, instr = .ret (some (zeroOf state result)) ∧
      (state.addZero result).strings <+: strings)

theorem ReturnsZero.mono {strings longer : List Bytes} {result : BasicType} {instr : Instr}
    (returns : ReturnsZero strings result instr) (more : strings <+: longer) :
    ReturnsZero longer result instr := by
  rcases returns with void | ⟨notVoid, state, isReturn, texts⟩
  · exact .inl void
  · exact .inr ⟨notVoid, state, isReturn, texts.trans more⟩

theorem ReturnsZero.isTerminator {strings : List Bytes} {result : BasicType} {instr : Instr}
    (returns : ReturnsZero strings result instr) : instr.isTerminator = true := by
  rcases returns with ⟨-, rfl⟩ | ⟨-, state, rfl, -⟩ <;> rfl

theorem usable_zero (draft : Draft) {type : BasicType} (isValue : type.IsValue) :
    Draft.Usable signature? ⟨draft.state.addZero type, draft.known⟩ (zeroOf draft.state type) := by
  have typed := zeroOf_type draft.state isValue.1 isValue.2
  cases type with
  | void => exact absurd rfl isValue.1
  | invalid => exact absurd rfl isValue.2
  | int => exact ⟨⟨isValue, ⟨by decide, by decide⟩, rfl⟩, by simp [zeroOf, Value.demands], isValue⟩
  | float => exact ⟨⟨isValue, trivial, rfl⟩, by simp [zeroOf, Value.demands], isValue⟩
  | bool => exact ⟨⟨isValue, trivial, rfl⟩, by simp [zeroOf, Value.demands], isValue⟩
  | string =>
      exact ⟨⟨isValue, textIndex_lt draft.state [], rfl⟩, by simp [zeroOf, Value.demands], isValue⟩

theorem Move.addZero (draft : Draft) (type : BasicType) {tidy : Prop} :
    Move signature? tidy draft ⟨draft.state.addZero type, draft.known⟩ := by
  cases type with
  | string =>
      refine .note _ (Nat.le_refl _) rfl rfl ?_ (.inl rfl)
      simp only [State.addZero, State.addText, internString]
      split
      · exact List.prefix_rfl
      · exact List.prefix_append _ _
  | int | float | bool | void | invalid =>
      exact .note _ (Nat.le_succ _) rfl rfl List.prefix_rfl (.inl rfl)

theorem State.code_emit (owned : (state.function.block? state.current.id).isSome) (instr : Instr)
    (id : Nat) :
    (state.emit instr).function.code id =
      if id = state.current.id then state.function.code id ++
        [instr] else state.function.code id := by
  by_cases here : id = state.current.id
  · rw [if_pos here, here]
    exact Function.code_append owned
  · rw [if_neg here]
    exact Function.code_append_of_ne here

theorem State.addZero_same (state : State) (type : BasicType) :
    (state.addZero type).current = state.current ∧
      (state.addZero type).function.blocks = state.function.blocks ∧
      (state.addZero type).function.result = state.function.result := by
  cases type <;> exact ⟨rfl, rfl, rfl⟩

/-- A return is put at the end of an open block. -/
theorem Draft.Sound.returnZero (sound : before.Sound signature?)
    (takes : before.state.isOpen = true) (valid : before.state.function.result ≠ .invalid) :
    ∃ (after : Draft) (instr : Instr), after.state = before.state.returnZero ∧
      Moves signature? True before after ∧
      (∀ id, after.state.function.code id =
        if id = before.state.current.id then before.state.function.code id ++ [instr]
        else before.state.function.code id) ∧
      ReturnsZero after.state.strings before.state.function.result instr := by
  unfold State.returnZero
  split
  · rename_i void
    refine ⟨⟨before.state.emit (.ret none), before.known⟩, .ret none, rfl, .single ?_,
      State.code_emit sound.owned (.ret none), .inl ⟨void, rfl⟩⟩
    rw [State.emit_eq_put rfl]
    exact .put (.ret none) 0 (fun _ => takes) void (by simp [Instr.demands, Instr.operands])
      (by simp [Instr.targets]) (by simp [Instr.result?]) (by simp [Instr.callee?])
  · rename_i notVoid
    have isValue : before.state.function.result.IsValue := ⟨notVoid, valid⟩
    have zero : Move signature? True before
        ⟨before.state.addZero before.state.function.result, before.known⟩ := Move.addZero before _
    have usable : Draft.Usable signature?
        ⟨before.state.addZero before.state.function.result, before.known⟩ _ :=
      usable_zero before isValue
    obtain ⟨current, blocks, result⟩ := before.state.addZero_same before.state.function.result
    refine ⟨⟨(before.state.addZero before.state.function.result).emit
      (.ret (some (zeroOf before.state before.state.function.result))), before.known⟩, _, rfl,
      Relation.ReflTransGen.tail (.single zero) ?_, fun id => ?_,
      .inr ⟨notVoid, before.state, rfl, List.prefix_rfl⟩⟩
    · rw [State.emit_eq_put rfl]
      refine .put (.ret (some (zeroOf before.state before.state.function.result))) 0
        (fun _ => ?_) ?_ ?_
        (by simp [Instr.targets]) (by simp [Instr.result?]) (by simp [Instr.callee?])
      · simpa only [State.isOpen, Function.isOpen, Function.block?, current, blocks] using takes
      · have typed := usable.typed
        rw [zeroOf_type before.state isValue.1 isValue.2] at typed
        rw [Instr.Typed, result]
        exact typed
      · simpa [Instr.demands, Instr.operands] using usable.demands
    · have emitted := State.code_emit (sound.move zero).owned
        (.ret (some (zeroOf before.state before.state.function.result))) id
      simp only [Function.code, Function.block?, current, blocks] at emitted ⊢
      exact emitted

/-- The blocks in a list are those of a draft as it is now. -/
structure Draft.Lists (draft : Draft) (blocks : List Block) : Prop where
  /-- They are there. -/
  below : ∀ block ∈ blocks, block.name.id < draft.state.function.nextBlock
  /-- They have the code of the draft. -/
  code_eq : ∀ block ∈ blocks, draft.state.function.code block.name.id = block.instrs
  /-- No block is listed twice. -/
  nodup : (blocks.map fun block => block.name.id).Nodup

theorem Draft.Lists.tail {draft : Draft} {block : Block} {rest : List Block}
    (lists : draft.Lists (block :: rest)) : draft.Lists rest :=
  ⟨fun other later => lists.below other (List.mem_cons_of_mem _ later),
    fun other later => lists.code_eq other (List.mem_cons_of_mem _ later),
    (List.nodup_cons.mp lists.nodup).2⟩

/-- What closing does to the code of a block. -/
def Closed (before after : State) (id : Nat) : Prop :=
  if before.function.isOpen id then
    ∃ instr, after.function.code id = before.function.code id ++ [instr] ∧
      ReturnsZero after.strings before.function.result instr
  else after.function.code id = before.function.code id

theorem Closed.congr {earlier before after : State} {id : Nat} (closed : Closed before after id)
    (owned : (before.function.block? id).isSome = (earlier.function.block? id).isSome)
    (code : before.function.code id = earlier.function.code id)
    (result : before.function.result = earlier.function.result) : Closed earlier after id := by
  unfold Closed at closed ⊢
  rwa [Function.isOpen_congr owned code, code, result] at closed

/-- Every listed block is closed, and nothing else changes. -/
theorem Draft.Sound.closeAll {blocks : List Block} (sound : before.Sound signature?)
    (valid : before.state.function.result ≠ .invalid) (lists : before.Lists blocks) :
    ∃ after : Draft, after.state = blocks.foldl State.close before.state ∧
      Moves signature? True before after ∧
      (∀ id, id ∉ blocks.map (fun block => block.name.id) →
        after.state.function.code id = before.state.function.code id) ∧
      ∀ id ∈ blocks.map (fun block => block.name.id), Closed before.state after.state id := by
  induction blocks generalizing before with
  | nil => exact ⟨before, rfl, .refl, fun _ _ => rfl, by simp⟩
  | cons block rest ih =>
      have below := lists.below block List.mem_cons_self
      have code := lists.code_eq block List.mem_cons_self
      obtain ⟨fresh, -⟩ := List.nodup_cons.mp lists.nodup
      have isOpen_eq : before.state.function.isOpen block.name.id = !block.isTerminated := by
        obtain ⟨found, there⟩ := sound.numbered.exists_block below
        rw [Function.isOpen, there]
        simp only [Block.isTerminated, Block.terminator?, ← code, Function.code_eq there]
      rw [List.foldl_cons, State.close]
      cases terminated : block.isTerminated with
      | true =>
          obtain ⟨after, same, moves, untouched, closed⟩ := ih sound valid lists.tail
          refine ⟨after, same, moves, fun id absent => ?_, fun id member => ?_⟩
          · exact untouched id fun within => absent (List.mem_cons_of_mem _ within)
          · rcases List.mem_cons.mp member with rfl | later
            · rw [Closed, isOpen_eq, terminated]
              exact untouched _ fresh
            · exact closed id later
      | false =>
          have entered := sound.enter below
          obtain ⟨first, instr, state, put, codes, returns⟩ := entered.returnZero
            (isOpen_eq.trans (by simp [terminated])) valid
          have moves : Moves signature? True before first :=
            Relation.ReflTransGen.head (.enter block.name below) put
          have stays : ∀ other ≠ block.name.id,
              first.state.function.code other = before.state.function.code other :=
                fun other differ =>
            (codes other).trans (if_neg differ)
          have apart : ∀ other ∈ rest, other.name.id ≠ block.name.id := fun other later same =>
            fresh (List.mem_map.mpr ⟨other, later, same⟩)
          have listed : first.Lists rest := ⟨fun other later => Nat.lt_of_lt_of_le
              (lists.tail.below other later) moves.grows.nextBlock_le,
            fun other later => (stays _ (apart other later)).trans (lists.tail.code_eq other later),
            lists.tail.nodup⟩
          obtain ⟨after, same, later, untouched, closed⟩ :=
            ih (sound.moves moves) (moves.grows.result_eq ▸ valid) listed
          refine ⟨after, ?_, Relation.ReflTransGen.trans moves later, fun id absent => ?_,
            fun id member => ?_⟩
          · rw [same, state]
            rfl
          · rw [untouched id fun within => absent (List.mem_cons_of_mem _ within)]
            exact stays id fun same => absent (same ▸ List.mem_cons_self)
          · rcases List.mem_cons.mp member with rfl | within
            · rw [Closed, isOpen_eq, terminated]
              refine ⟨instr, ?_, returns.mono later.grows.strings_extend⟩
              exact (untouched _ fresh).trans ((codes _).trans (if_pos rfl))
            · obtain ⟨other, there, rfl⟩ := List.mem_map.mp within
              have old := sound.numbered.block?_isSome.mpr (lists.tail.below other there)
              have new := (sound.moves moves).numbered.block?_isSome.mpr (listed.below other there)
              exact (closed _ within).congr (new.trans old.symm) (stays _ (apart other there))
                moves.grows.result_eq

/-- In a finished function every block has ended. -/
structure Finished (signature? : Bytes → Option Signature) (before after : Draft) : Prop where
  /-- It is finished. -/
  state_eq : after.state = before.state.finish
  /-- The moves are tidy. -/
  moves : Moves signature? True before after
  /-- Open blocks are closed. -/
  closed : ∀ id, Closed before.state after.state id
  /-- No block is added. -/
  nextBlock_eq : after.state.function.nextBlock = before.state.function.nextBlock

theorem State.close_same (state : State) (block : Block) :
    (state.close block).function.nextBlock = state.function.nextBlock ∧
      (state.close block).table = state.table ∧ (state.close block).slots = state.slots := by
  unfold State.close State.returnZero
  split
  · exact ⟨rfl, rfl, rfl⟩
  · split
    · exact ⟨rfl, rfl, rfl⟩
    · cases (state.enter block.name).function.result <;> exact ⟨rfl, rfl, rfl⟩

/-- The end of a function adds no blocks and leaves the scopes alone. -/
theorem State.finish_same (state : State) :
    state.finish.function.nextBlock = state.function.nextBlock ∧
      state.finish.table = state.table ∧ state.finish.slots = state.slots := by
  suffices ∀ blocks : List Block,
      (blocks.foldl State.close state).function.nextBlock = state.function.nextBlock ∧
        (blocks.foldl State.close state).table = state.table ∧
        (blocks.foldl State.close state).slots = state.slots from
    this state.function.blocks
  intro blocks
  induction blocks generalizing state with
  | nil => exact ⟨rfl, rfl, rfl⟩
  | cons block rest ih =>
      obtain ⟨blocks, table, slots⟩ := state.close_same block
      obtain ⟨laterBlocks, laterTable, laterSlots⟩ := ih (state.close block)
      exact ⟨laterBlocks.trans blocks, laterTable.trans table, laterSlots.trans slots⟩

theorem Draft.Sound.finish (sound : before.Sound signature?)
    (valid : before.state.function.result ≠ .invalid) :
    ∃ after : Draft, Finished signature? before after := by
  have lists : before.Lists before.state.function.blocks := by
    refine ⟨fun block member => sound.numbered.lt_of_mem member, fun block member => ?_,
      sound.numbered.nodup⟩
    exact Function.code_eq (Function.block?_of_mem sound.numbered.nodup member)
  obtain ⟨after, same, moves, untouched, closed⟩ := sound.closeAll valid lists
  refine ⟨after, same, moves, fun id => ?_, ?_⟩
  · by_cases listed : id ∈ before.state.function.blocks.map fun block => block.name.id
    · exact closed id listed
    · have missing : before.state.function.block? id = none := by
        rw [← Option.not_isSome_iff_eq_none, sound.numbered.block?_isSome]
        rwa [sound.numbered, List.mem_range] at listed
      rw [Closed, Function.isOpen, missing]
      exact untouched id listed
  · rw [same]
    exact before.state.finish_same.1

/-- In a finished function every block ends in a terminator. -/
theorem Finished.terminated (finished : Finished signature? before after)
    (sound : before.Sound signature?) {block : Block}
    (member : block ∈ after.state.function.blocks) : block.isTerminated = true := by
  have numbered := (sound.moves finished.moves).numbered
  have below : block.name.id < before.state.function.nextBlock :=
    finished.nextBlock_eq ▸ numbered.lt_of_mem member
  have code := Function.code_eq (Function.block?_of_mem numbered.nodup member)
  have closed := finished.closed block.name.id
  unfold Closed at closed
  rw [Block.isTerminated_iff, ← code]
  cases isOpen : before.state.function.isOpen block.name.id with
  | true =>
      rw [isOpen, if_pos rfl] at closed
      obtain ⟨instr, split, returns⟩ := closed
      exact ⟨_, instr, split, returns.isTerminator⟩
  | false =>
      rw [isOpen, if_neg (by decide)] at closed
      obtain ⟨old, there⟩ := sound.numbered.exists_block below
      rw [closed, Function.code_eq there, ← Block.isTerminated_iff]
      simpa [Function.isOpen, there] using isOpen

end Closing

end ScriptCompiler.Lowering
