import ScriptCompiler.Proofs.Lowering.BuiltModule
import ScriptCompiler.Proofs.Reordering.Statements

/-!
# Lowering functions on both sides

Between functions a state is idle, and the scope that a body stands in holds the functions of the
program and nothing else.  So a function may be lowered behind any others: it comes out the same up
to the places of string constants, and adds the same string constants and declarations
(`Piece.lowered_alike`).
-/

namespace ScriptCompiler.Lowering

open IR Build

variable {comparison : Comparison} {context context' : Nat} {contexts contexts' : List Nat}
  {state state' last last' : State} {signature? : Bytes → Option Signature}

section Beginning

/-- The comparison of two runs that go on from idle states. -/
def Comparison.since (texts texts' : List Bytes) (state state' : State) : Comparison :=
  ⟨texts, state.strings, state.externals, texts', state'.strings, state'.externals⟩

theorem State.Idle.nested {function : Function} (idle : state.Idle)
    (inside : context < state.nextContext) : (state.begin function).Nested [context] where
  idle := ⟨idle.wellScoped.congr rfl rfl, idle.declared⟩
  inside := fun _ member => List.mem_singleton.mp member ▸ inside
  decreasing := List.pairwise_singleton _ _

/-- Both sides begin a function. -/
theorem Twin.begin {texts texts' : List Bytes} {name : Bytes} {params : List (Bytes × BasicType)}
    {result : BasicType} (idle : state.Idle) (idle' : state'.Idle)
    (plain : state.Plain signature? context) (plain' : state'.Plain signature? context') :
    Twin (.since texts texts' state state') [context] [context']
      (state.begin (.ofSignature name params result))
      (state'.begin (.ofSignature name params result)) where
  function := (Function.ofSignature_relocated name params result).symm
  current := rfl
  meanings := by
    refine .cons ?_ .nil
    have begins : (state.begin (.ofSignature name params result)).meaning? = state.meaning? :=
      State.meaning?_congr rfl rfl
    have begins' : (state'.begin (.ofSignature name params result)).meaning? = state'.meaning? :=
      State.meaning?_congr rfl rfl
    funext other
    rw [begins, begins', plain.functions, plain'.functions]
  nested := idle.nested plain.inside
  nested' := idle'.nested plain'.inside
  strings := .refl _ _
  externals := .refl _ _

/-- Parameters get their slots on both sides. -/
theorem StepAlike.spillParams (params : List (Param × Place)) :
    StepAlike comparison (context :: contexts) (context' :: contexts')
      (Lowering.spillParams context params) (Lowering.spillParams context' params) := by
  induction params with
  | nil => exact .pure
  | cons entry rest ih =>
      intro state state' last last' twin run run' fits fits'
      obtain ⟨param, place⟩ := entry
      obtain ⟨symbol, table, declares, restRun⟩ := spillParams_cons_ok run
      obtain ⟨symbol', table', declares', restRun'⟩ := spillParams_cons_ok run'
      have same : Value.param place = (Value.param place).relocated comparison.place := rfl
      exact ih _ _ _ _ (twin.hold rfl rfl rfl ⟨_, rfl⟩ ⟨_, rfl⟩ declares declares' same) restRun
        restRun' fits fits'

end Beginning

section Ending

variable (twin : Twin comparison contexts contexts' state state')
include twin

/-- Both sides return the zero of the result type. -/
theorem Twin.returnZero (fits : state.returnZero.strings <+: comparison.texts)
    (fits' : state'.returnZero.strings <+: comparison.texts') :
    Twin comparison contexts contexts' state.returnZero state'.returnZero := by
  unfold State.returnZero at fits fits' ⊢
  rw [twin.result] at fits' ⊢
  split
  · exact twin.emit rfl
  · rename_i notVoid
    rw [if_neg notVoid] at fits fits'
    obtain ⟨later, same⟩ := twin.zero _ fits fits'
    exact later.emit (by rw [same]; rfl)

theorem Twin.close (block : Block) (fits : (state.close block).strings <+: comparison.texts)
    (fits' : (state'.close (block.relocated comparison.place)).strings <+: comparison.texts') :
    Twin comparison contexts contexts' (state.close block)
      (state'.close (block.relocated comparison.place)) := by
  unfold State.close at fits fits' ⊢
  rw [Block.isTerminated_relocated] at fits' ⊢
  split
  · exact twin
  · rename_i open_
    rw [if_neg open_] at fits fits'
    exact (twin.enter rfl).returnZero fits fits'

omit twin in
theorem State.strings_foldl_close (blocks : List Block) :
    Enlarges state.strings (blocks.foldl State.close state).strings :=
  lengthens_closeBlocks blocks state _ () (closeBlocks_ok.mpr rfl)

/-- Both sides close the blocks of a function. -/
theorem Twin.finish (fits : state.finish.strings <+: comparison.texts)
    (fits' : state'.finish.strings <+: comparison.texts') :
    Twin comparison contexts contexts' state.finish state'.finish := by
  have blocks : state'.function.blocks =
      state.function.blocks.map (Block.relocated comparison.place) := by
    rw [twin.function]
    rfl
  unfold State.finish at fits fits' ⊢
  rw [blocks] at fits' ⊢
  clear blocks
  generalize state.function.blocks = listed at fits fits' ⊢
  induction listed generalizing state state' with
  | nil => exact twin
  | cons block rest ih =>
      rw [List.map_cons, List.foldl_cons] at fits' ⊢
      rw [List.foldl_cons] at fits ⊢
      have closed := twin.close block ((State.strings_foldl_close rest).within fits)
        ((State.strings_foldl_close _).within fits')
      exact ih closed fits fits'

end Ending

/-- A function is made on both sides, the same up to the places of string constants in two
tables. -/
structure FunctionAlike (texts texts' : List Bytes) (state : State) (function : Function)
    (last : State) (state' : State) (function' : Function) (last' : State) : Prop where
  /-- The functions are the same up to these places. -/
  function_eq : function' = function.relocated (newPlace texts texts')
  /-- The same string constants are added. -/
  strings : Additions state.strings last.strings state'.strings last'.strings
  /-- The same declarations are added. -/
  externals : Additions state.externals last.externals state'.externals last'.externals

theorem Twin.functionAlike {texts texts' : List Bytes} {ended ended' : State}
    (twin : Twin (.since texts texts' state state') contexts contexts' ended ended')
    (fits : ended.finish.strings <+: texts) (fits' : ended'.finish.strings <+: texts') :
    FunctionAlike texts texts' state ended.finish.function ended.finish state'
      ended'.finish.function ended'.finish := by
  have done := twin.finish fits fits'
  exact ⟨done.function, done.strings, done.externals⟩

/-- The parts that the functions of a module are made from. -/
inductive Piece where
  /-- A declared function, perhaps behind the statements at top level. -/
  | own (topLevel : List Stmt) (declared : Declared)
  /-- The statements at top level. -/
  | topLevel (name : Bytes) (statements : List Stmt)

/-- A function is lowered from a piece. -/
inductive Piece.Lowered (signature? : Bytes → Option Signature) :
    State → Piece → Function → State → Prop where
  /-- From a declaration. -/
  | own {state last : State} {parent : Nat} {topLevel : List Stmt} {declared : Declared}
      {params : List (Bytes × BasicType)} {result : BasicType} {function : Function}
      (header : declared.Header params result) (idle : state.Idle)
      (plain : state.Plain signature? parent) (topLevelWritten : Stmt.AllWritten topLevel)
      (bodyWritten : Stmt.AllWritten declared.declaration.body)
      (run : lowerFunction parent topLevel declared state = .ok (function, last)) :
      Lowered signature? state (.own topLevel declared) function last
  /-- From the statements at top level. -/
  | topLevel {state last : State} {context : Nat} {name : Bytes} {statements : List Stmt}
      {function : Function} (idle : state.Idle) (plain : state.Plain signature? context)
      (written : Stmt.AllWritten statements)
      (run : lowerTopLevel context name statements state = .ok (function, last)) :
      Lowered signature? state (.topLevel name statements) function last

/-- A piece is one function of the source. -/
theorem Piece.Lowered.lowers {piece : Piece} {function : Function}
    (lowered : piece.Lowered signature? state function last) :
    ∃ source, Lowers signature? state source function last := by
  cases lowered with
  | own header idle plain topLevelWritten bodyWritten run =>
      rename_i topLevel _ _ _
      exact ⟨_, @Lowers.own _ _ _ _ (some topLevel) _ _ _ _ header idle plain topLevelWritten
        bodyWritten run⟩
  | topLevel idle plain written run => exact ⟨_, .topLevel idle plain written run⟩

/-- Lowering a function takes no string constant away. -/
theorem Piece.Lowered.strings_extend {piece : Piece} {function : Function}
    (lowered : piece.Lowered signature? state function last) :
    Enlarges state.strings last.strings := by
  cases lowered with
  | own header idle plain topLevelWritten bodyWritten run =>
      obtain ⟨middle, spilled, ended, prologueRun, spillRun, bodyRun, -, rfl⟩ :=
        lowerFunction_ok run
      have prologue := lengthens_lowerStmts _ _ _ _ prologueRun
      have spills := lengthens_spillParams _ _ _ _ spillRun
      have body := lengthens_lowerStmts _ _ _ _ bodyRun
      exact prologue.trans (spills.trans (body.trans (State.strings_foldl_close _)))
  | topLevel idle plain written run =>
      obtain ⟨ended, bodyRun, -, rfl⟩ := lowerTopLevel_ok run
      have body := lengthens_lowerStmts _ _ _ _ bodyRun
      exact body.trans (State.strings_foldl_close _)

/-- **What a function is lowered to does not depend on what was lowered before.** -/
theorem Piece.lowered_alike {texts texts' : List Bytes} {piece : Piece}
    {function function' : Function} (lowered : piece.Lowered signature? state function last)
    (lowered' : piece.Lowered signature? state' function' last')
    (fits : last.strings <+: texts) (fits' : last'.strings <+: texts') :
    FunctionAlike texts texts' state function last state' function' last' := by
  cases lowered with
  | own header idle plain topLevelWritten bodyWritten run =>
      cases lowered' with
      | own header' idle' plain' _ _ run' =>
          obtain ⟨middle, spilled, ended, prologueRun, spillRun, bodyRun, rfl, rfl⟩ :=
            lowerFunction_ok run
          obtain ⟨middle', spilled', ended', prologueRun', spillRun', bodyRun', rfl, rfl⟩ :=
            lowerFunction_ok run'
          rw [header.function_eq] at prologueRun prologueRun' spillRun spillRun'
          have fitsEnded := (State.strings_foldl_close _).within fits
          have fitsEnded' := (State.strings_foldl_close _).within fits'
          have fitsSpilled := (lengthens_lowerStmts _ _ _ _ bodyRun).within fitsEnded
          have fitsSpilled' := (lengthens_lowerStmts _ _ _ _ bodyRun').within fitsEnded'
          have fitsMiddle := (lengthens_spillParams _ _ _ _ spillRun).within fitsSpilled
          have fitsMiddle' := (lengthens_spillParams _ _ _ _ spillRun').within fitsSpilled'
          have behind : Twin (.since texts texts' state state') [_] [_] middle middle' :=
            bodyAlike _ _ _ _ _ _ _ _ _ _ (.begin idle idle' plain plain') prologueRun prologueRun'
              fitsMiddle fitsMiddle'
          have spills := StepAlike.spillParams _ _ _ _ _ (behind.openScope .function _) spillRun
            spillRun' fitsSpilled fitsSpilled'
          have body := bodyAlike _ _ _ _ _ _ _ _ _ _ spills bodyRun bodyRun' fitsEnded fitsEnded'
          exact body.functionAlike fits fits'
  | topLevel idle plain written run =>
      cases lowered' with
      | topLevel idle' plain' _ run' =>
          obtain ⟨ended, bodyRun, rfl, rfl⟩ := lowerTopLevel_ok run
          obtain ⟨ended', bodyRun', rfl, rfl⟩ := lowerTopLevel_ok run'
          have body : Twin (.since texts texts' state state') [_] [_] ended ended' :=
            bodyAlike _ _ _ _ _ _ _ _ _ _ (.begin idle idle' plain plain') bodyRun bodyRun'
              ((State.strings_foldl_close _).within fits)
                ((State.strings_foldl_close _).within fits')
          exact body.functionAlike fits fits'

end ScriptCompiler.Lowering
