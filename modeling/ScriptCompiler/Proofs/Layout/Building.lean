import ScriptCompiler.Proofs.Layout.Scopes

/-!
# Programs at other positions

The statements and functions of a program are lowered alike at other positions, and so is the
program (`build_moved`).
-/

namespace ScriptCompiler.Lowering

open IR

variable {move : Move} {context : Context}

section Statements

theorem tracks_lowerInitial (name : Bytes) (declared : Option BasicType) (expression : Expr) :
    Tracks move id (lowerInitial context name declared expression)
      (lowerInitial context name declared (expression.moved move)) := by
  refine (tracks_lowerExpr expression).bind fun value => ?_
  rw [Expr.first_moved]
  refine .guard ?_
  cases declared with
  | none => exact .pure _
  | some type => exact .guard (.pure _)

/-- A symbol is declared at its new position. -/
theorem tracks_declare (symbol : Symbol) :
    Tracks move (Symbol.moved move) (onTable context fun table => table.declare context symbol)
      (onTable context fun table => table.declare context (symbol.moved move)) :=
  .onTable fun _ => ScopeTable.declare_moved

theorem tracks_initialValue (type : BasicType) (initial : Option Value) :
    Tracks move id (initialValue type initial) (initialValue type initial) := by
  cases initial with
  | none => exact tracks_zeroValue type
  | some value => exact .pure _

theorem tracks_lowerVariable (declaration : VarDecl) :
    Tracks move id (lowerVariable context declaration)
      (lowerVariable context (declaration.moved move)) := by
  have types : Tracks move (Option.map id) (declaration.type.mapM (valueType context))
      ((declaration.type.map (Identifier.moved move)).mapM (valueType context)) :=
    .optional tracks_valueType
  have initials : ∀ declared, Tracks move (Option.map id)
      (declaration.initial.mapM (lowerInitial context declaration.name.name declared))
      ((declaration.initial.map (Expr.moved move)).mapM
        (lowerInitial context declaration.name.name declared)) :=
    fun declared => .optional (tracks_lowerInitial _ declared)
  refine types.bind fun declared => ?_
  rw [Option.map_id]
  refine (initials declared).bind fun initial => ?_
  rw [Option.map_id]
  dsimp only [id]
  cases declared.or (initial.map Value.type) with
  | none => exact .refuse _ _ _
  | some type =>
      exact (tracks_declare _).bind fun symbol =>
        (tracks_initialValue type initial).bind fun value =>
        tracks_holdValue symbol type value

theorem tracks_lowerStart (start : LoopStart) :
    Tracks move id (lowerStart context start) (lowerStart context (start.moved move)) := by
  cases start with
  | «variable» declaration => exact tracks_lowerVariable declaration
  | expression statement => exact (tracks_lowerExpr statement.expression).bind fun _ => .pure ()

theorem tracks_lowerCondition (owner : Bytes) (expression : Expr) :
    Tracks move id (lowerCondition context owner expression)
      (lowerCondition context owner (expression.moved move)) := by
  refine (tracks_lowerExpr expression).bind fun _ => ?_
  rw [Expr.first_moved]
  exact .guard (.pure _)

theorem tracks_lowerReturn (first : Position) (value : Option Expr) :
    Tracks move id (lowerReturn context first value)
      (lowerReturn context (move first) (value.map (Expr.moved move))) := by
  cases value with
  | none => exact Tracks.get.bind fun _ => .guard (tracks_emit _)
  | some expression =>
      refine (tracks_lowerExpr expression).bind fun value => Tracks.get.bind fun state => ?_
      rw [Expr.first_moved]
      exact .guard (.guard (tracks_emit _))

section Branches

variable {consequent consequent' alternative alternative' : Build Unit}
  (first : Tracks move id consequent consequent') (second : Tracks move id alternative alternative')

include first in
theorem tracks_lowerWhen (condition : Value) :
    Tracks move id (lowerWhen condition consequent) (lowerWhen condition consequent') :=
  (tracks_newBlock _).bind fun _ => (tracks_newBlock _).bind fun _ =>
    (tracks_branch _ _ _).bind fun _ =>
    (tracks_enter _).bind fun _ => first.bind fun _ => (tracks_jumpIfOpen _).bind fun _ =>
    tracks_enter _

include first second in
theorem tracks_lowerChoice (condition : Value) :
    Tracks move id (lowerChoice condition consequent alternative)
      (lowerChoice condition consequent' alternative') :=
  (tracks_newBlock _).bind fun _ => (tracks_newBlock _).bind fun _ =>
    (tracks_newBlock _).bind fun _ =>
    (tracks_branch _ _ _).bind fun _ => (tracks_enter _).bind fun _ => first.bind fun _ =>
    (tracks_jumpIfOpen _).bind fun _ => (tracks_enter _).bind fun _ => second.bind fun _ =>
    (tracks_jumpIfOpen _).bind fun _ => tracks_enter _

end Branches

theorem tracks_lowerRounds (condition advance : Option Expr) {body body' : LoopTargets → Build Unit}
    (inner : ∀ targets, Tracks move id (body targets) (body' targets)) :
    Tracks move id (lowerRounds context condition advance body)
      (lowerRounds context (condition.map (Expr.moved move)) (advance.map (Expr.moved move))
        body') := by
  have tests : ∀ bodyBlock endBlock, Tracks move id (lowerTest context bodyBlock endBlock condition)
      (lowerTest context bodyBlock endBlock (condition.map (Expr.moved move))) := by
    intro bodyBlock endBlock
    cases condition with
    | none => exact tracks_jump _
    | some test => exact (tracks_lowerCondition _ test).bind fun _ => tracks_branch _ _ _
  have advances : ∀ postBlock condBlock, Tracks move id
      (lowerAdvance context postBlock condBlock advance)
      (lowerAdvance context postBlock condBlock (advance.map (Expr.moved move))) := by
    intro postBlock condBlock
    cases advance with
    | none => exact .pure _
    | some expression =>
        exact (tracks_enter _).bind fun _ => (tracks_lowerExpr expression).bind fun _ =>
          tracks_jump _
  have posts : Tracks move (Option.map id) (advance.mapM fun _ => newBlock "loop.post")
      ((advance.map (Expr.moved move)).mapM fun _ => newBlock "loop.post") :=
    .optional fun _ => tracks_newBlock _
  refine (tracks_newBlock _).bind fun condBlock => (tracks_newBlock _).bind fun bodyBlock =>
    posts.bind fun postBlock => ?_
  rw [Option.map_id]
  exact (tracks_newBlock _).bind fun _ => (tracks_jump _).bind fun _ =>
    (tracks_enter _).bind fun _ =>
    (tests _ _).bind fun _ => (tracks_enter _).bind fun _ => (inner _).bind fun _ =>
    (tracks_jumpIfOpen _).bind fun _ => (advances _ _).bind fun _ => tracks_enter _

/-- What stands behind `else` is lowered alike if its own statements are. -/
theorem tracks_lowerAlternative {loop : Option LoopTargets} (alternative : Stmt)
    (whole : Tracks move id (lowerStmt context loop alternative)
      (lowerStmt context loop (alternative.moved move)))
    (parts : ∀ opening body closing, alternative = .block opening body closing → ∀ inner,
      Tracks move id (lowerStmts inner loop body)
        (lowerStmts inner loop (body.map (Stmt.moved move)))) :
    Tracks move id (lowerAlternative context loop alternative)
      (lowerAlternative context loop (alternative.moved move)) := by
  cases alternative with
  | block opening body closing =>
      rw [Stmt.moved, Stmt.movedAll_eq]
      exact .inScope (parts opening body closing rfl)
  | conditional first condition opening consequent closing alternative =>
      cases alternative <;> simp only [Stmt.moved] at whole ⊢ <;> exact whole
  | _ => exact whole

mutual

/-- Lowering a statement does not look at positions. -/
theorem tracks_lowerStmt (statement : Stmt) {loop : Option LoopTargets} {context : Context} :
    Tracks move id (lowerStmt context loop statement)
      (lowerStmt context loop (statement.moved move)) := by
  match statement with
  | .variable declaration =>
      rw [Stmt.moved, lowerStmt, lowerStmt]
      exact tracks_openBlock.bind fun _ => tracks_lowerVariable declaration
  | .expression statement =>
      rw [Stmt.moved, lowerStmt, lowerStmt]
      exact tracks_openBlock.bind fun _ => (tracks_lowerExpr statement.expression).bind fun _ =>
        .pure ()
  | .block _ body _ =>
      rw [Stmt.moved, Stmt.movedAll_eq, lowerStmt, lowerStmt]
      exact tracks_openBlock.bind fun _ => .inScope fun _ => tracks_lowerStmts body
  | .conditional _ condition _ consequent _ none =>
      rw [Stmt.moved, Stmt.movedAll_eq, lowerStmt, lowerStmt]
      exact tracks_openBlock.bind fun _ => (tracks_lowerCondition _ condition).bind fun value =>
        tracks_lowerWhen (.inScope fun _ => tracks_lowerStmts consequent) value
  | .conditional _ condition _ consequent _ (some alternative) =>
      have nested : ∀ opening body closing, alternative = .block opening body closing → ∀ inner,
          Tracks move id (lowerStmts inner loop body)
            (lowerStmts inner loop (body.map (Stmt.moved move))) := by
        rintro opening body closing rfl inner
        exact tracks_lowerStmts body
      rw [Stmt.moved, Stmt.movedAll_eq, lowerStmt_choice, lowerStmt_choice]
      exact tracks_openBlock.bind fun _ => (tracks_lowerCondition _ condition).bind fun value =>
        tracks_lowerChoice (.inScope fun _ => tracks_lowerStmts consequent)
          (tracks_lowerAlternative alternative (tracks_lowerStmt alternative) nested) value
  | .loop _ start condition advance _ body _ =>
      have starts : ∀ scope, Tracks move id (start.forM (lowerStart scope))
          ((start.map (LoopStart.moved move)).forM (lowerStart scope)) := by
        intro scope
        cases start with
        | none => exact .pure _
        | some first => exact tracks_lowerStart first
      rw [Stmt.moved, Stmt.movedAll_eq, lowerStmt, lowerStmt]
      exact tracks_openBlock.bind fun _ => .inScope fun scope => (starts scope).bind fun _ =>
        tracks_lowerRounds condition advance fun _ => .inScope fun _ => tracks_lowerStmts body
  | .return_ first value _ =>
      rw [Stmt.moved, lowerStmt, lowerStmt]
      exact tracks_openBlock.bind fun _ => tracks_lowerReturn first value
  | .break_ keyword =>
      rw [Stmt.moved]
      cases loop with
      | none =>
          rw [lowerStmt, lowerStmt]
          exact tracks_openBlock.bind fun _ => .refuse _ _ _
      | some targets =>
          rw [lowerStmt, lowerStmt]
          exact tracks_openBlock.bind fun _ => tracks_jump _
  | .continue_ keyword =>
      rw [Stmt.moved]
      cases loop with
      | none =>
          rw [lowerStmt, lowerStmt]
          exact tracks_openBlock.bind fun _ => .refuse _ _ _
      | some targets =>
          rw [lowerStmt, lowerStmt]
          exact tracks_openBlock.bind fun _ => tracks_jump _
  | .function first =>
      rw [Stmt.moved, lowerStmt, lowerStmt]
      exact tracks_openBlock.bind fun _ => .refuse _ _ _
termination_by sizeOf statement

/-- Lowering statements does not look at positions. -/
theorem tracks_lowerStmts (statements : List Stmt) {loop : Option LoopTargets} {context : Context} :
    Tracks move id (lowerStmts context loop statements)
      (lowerStmts context loop (statements.map (Stmt.moved move))) := by
  match statements with
  | [] =>
      rw [List.map_nil, lowerStmts]
      exact .pure ()
  | statement :: rest =>
      rw [List.map_cons, lowerStmts, lowerStmts]
      exact (tracks_lowerStmt statement).bind fun _ => tracks_lowerStmts rest
termination_by sizeOf statements

end

end Statements

section Programs

theorem tracks_declareFunction (declaration : FunctionDecl) :
    Tracks move (Declared.moved move) (declareFunction declaration)
      (declareFunction (declaration.moved move)) := by
  have params : Tracks move (List.map id) (declaration.params.mapM fun param : Param => do
        return (param.name.name, ← valueType ScopeTable.root param.type))
      ((declaration.params.map (Param.moved move)).mapM fun param : Param => do
        return (param.name.name, ← valueType ScopeTable.root param.type)) :=
    .mapM fun param _ => (tracks_valueType param.type).bind fun _ => .pure _
  refine params.bind fun params => ?_
  rw [List.map_id]
  have rest : ∀ result : BasicType, Tracks move (Declared.moved move) (do
      let _ ← onTable ScopeTable.root fun table => table.declare ScopeTable.root
        { name := declaration.name.name, kind := .function,
          type := some (.ofSignature { params := params.map Prod.snd, result }),
          position := declaration.name.first }
      return ⟨declaration, .ofSignature declaration.name.name params result⟩ : Build Declared) (do
      let _ ← onTable ScopeTable.root fun table => table.declare ScopeTable.root
        { name := declaration.name.name, kind := .function,
          type := some (.ofSignature { params := params.map Prod.snd, result }),
          position := move declaration.name.first }
      return ⟨declaration.moved move, .ofSignature declaration.name.name params result⟩ :
        Build Declared) :=
    fun result => (tracks_declare _).bind fun _ =>
      .pure (Declared.mk declaration (.ofSignature declaration.name.name params result))
  have nothing : Tracks move id (pure .void : Build BasicType) (pure .void) := .pure _
  rw [show (declaration.moved move).result =
    declaration.result.map (Identifier.moved move) from rfl]
  cases declaration.result with
  | some identifier => exact (tracks_resultType identifier).bind fun result => rest result
  | none => exact nothing.bind fun result => rest result

theorem tracks_closeBlocks (blocks : List Block) :
    Tracks move id (closeBlocks blocks) (closeBlocks blocks) := by
  induction blocks with
  | nil => exact .pure ()
  | cons block rest ih =>
      rw [closeBlocks]
      refine .ite ?_ ih
      refine (tracks_enter _).bind fun _ => Tracks.get.bind fun state => .ite ?_ ?_
      · exact (tracks_emit _).bind fun _ => ih
      · exact (tracks_zeroValue state.function.result).bind fun _ =>
          (tracks_emit _).bind fun _ => ih

theorem tracks_finishFunction : Tracks move id finishFunction finishFunction :=
  Tracks.get.bind fun state => (tracks_closeBlocks state.function.blocks).bind fun _ =>
    Tracks.get.bind fun last => .pure last.function

theorem tracks_spillParams (params : List (Param × Place)) :
    Tracks move id (spillParams context params)
      (spillParams context (params.map (Prod.map (Param.moved move) id))) := by
  induction params with
  | nil => exact .pure ()
  | cons entry rest ih =>
      obtain ⟨param, place⟩ := entry
      rw [List.map_cons, Prod.map_apply, spillParams, spillParams]
      exact (tracks_declare _).bind fun symbol =>
        (tracks_holdValue symbol place.type _).bind fun _ => ih

theorem tracks_lowerFunction (prologue : List Stmt) (declared : Declared) :
    Tracks move id (lowerFunction context prologue declared)
      (lowerFunction context (prologue.map (Stmt.moved move)) (declared.moved move)) := by
  have zipped : ((declared.moved move).declaration.params.zip declared.function.params) =
      (declared.declaration.params.zip declared.function.params).map
        (Prod.map (Param.moved move) id) := List.zip_map_left ..
  have body : (declared.moved move).declaration.body =
      declared.declaration.body.map (Stmt.moved move) := Stmt.movedAll_eq _
  refine (tracks_beginFunction declared.function).bind fun _ => (tracks_lowerStmts prologue).bind
    fun _ => (Tracks.openScope context .function _).bind fun scope => ?_
  dsimp only [id]
  rw [body, show (declared.moved move).function = declared.function from rfl, zipped]
  exact (tracks_spillParams _).bind fun _ => (tracks_lowerStmts declared.declaration.body).bind
    fun _ => tracks_finishFunction

theorem tracks_lowerTopLevel (name : Bytes) (statements : List Stmt) :
    Tracks move id (lowerTopLevel context name statements)
      (lowerTopLevel context name (statements.map (Stmt.moved move))) :=
  (tracks_beginFunction _).bind fun _ => (tracks_lowerStmts statements).bind fun _ =>
    tracks_finishFunction

/-- Lowering each of some declared functions. -/
theorem tracks_lowerBodies {items : List Declared} {step step' : Declared → Build Function}
    (each : ∀ item, Tracks move id (step item) (step' (item.moved move))) :
    Tracks move id (items.mapM step) ((items.map (Declared.moved move)).mapM step') := by
  have all : Tracks move (List.map id) (items.mapM step)
      ((items.map (Declared.moved move)).mapM step') := .mapM fun item _ => each item
  rwa [List.map_id_fun] at all

theorem tracks_lowerItems (options : EntryOptions) (stem : Bytes) (program : Program) :
    Tracks move id (lowerItems options stem program)
      (lowerItems options stem (program.moved move)) := by
  have bodies : ∀ items : List Declared, Tracks move id
      (items.mapM (lowerFunction ScopeTable.root []))
      ((items.map (Declared.moved move)).mapM (lowerFunction ScopeTable.root [])) :=
    fun items => tracks_lowerBodies fun item => tracks_lowerFunction [] item
  unfold lowerItems
  rw [Program.functions_moved, Program.statements_moved]
  refine (Tracks.mapM fun declaration _ => tracks_declareFunction declaration).bind fun declared =>
    (Tracks.openScope _ _ _).bind fun topLevel => ?_
  have chosen : (declared.map (Declared.moved move)).any (fun item =>
      options.policy == .auto && item.declaration.name.name == options.entryName) =
      declared.any fun item =>
        options.policy == .auto && item.declaration.name.name == options.entryName := by
    rw [List.any_map]
    rfl
  have reserved : ((program.functions.map (FunctionDecl.moved move)).find? fun declaration =>
      declaration.name.name == synthesizedEntry stem) =
      (program.functions.find? fun declaration =>
        declaration.name.name == synthesizedEntry stem).map (FunctionDecl.moved move) := by
    rw [List.find?_map]
    rfl
  dsimp only [id]
  rw [chosen, reserved]
  refine .ite ?_ ?_
  · refine (tracks_lowerBodies fun item => ?_).bind fun functions => .pure _
    exact .ite (tracks_lowerFunction _ item) (tracks_lowerFunction [] item)
  · cases program.functions.find? fun declaration =>
      declaration.name.name == synthesizedEntry stem with
    | some declaration => exact .refuse _ _ _
    | none =>
        exact (tracks_lowerTopLevel _ _).bind fun entry => (bodies declared).bind fun functions =>
          .pure _

end Programs

/-- The outcome of lowering a program, with the scopes at their new positions. -/
def Built.moved (move : Move) (built : Built) : Built :=
  { built with table := built.table.moved move }

/-- **Lowering does not look at positions.**  A program at other positions is lowered to the same
module, with the same scopes at the new positions, or refused for the same reason at the new
position. -/
theorem build_moved (options : EntryOptions) (file : SourceFile) (program : Program) :
    match build options file program with
    | .ok built => build options file (program.moved move) = .ok (built.moved move)
    | .error diagnostic => ∃ other, build options file (program.moved move) = .error other ∧
        diagnostic.Alike move other := by
  let start : State :=
    { table := .ofFile file, function := .ofSignature [] [] .void, current := ⟨Function.entry, []⟩ }
  have both := @tracks_lowerItems move options file.stem program start
  have same : start.moved move = start := rfl
  rw [same] at both
  simp only [build, StateT.run, Bind.bind, Except.bind]
  generalize lowerItems options file.stem program start = left at both
  generalize lowerItems options file.stem (program.moved move) start = right at both
  cases both with
  | ok value last => rfl
  | error alike => exact ⟨_, rfl, alike⟩

end ScriptCompiler.Lowering
