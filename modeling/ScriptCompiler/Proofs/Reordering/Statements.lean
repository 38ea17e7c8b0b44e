import ScriptCompiler.Proofs.Reordering.Bodies

/-!
# Lowering statements on both sides

A statement that is lowered from twins leaves twins behind.  The scopes that it opens have other
numbers on the other side, but its blocks have the same names.
-/

namespace ScriptCompiler.Lowering

open IR Build

variable {comparison : Comparison} {context context' : Nat} {contexts contexts' : List Nat}
  {state state' last last' : State} {value value' : Value}

/-- Both sides take a step alike. -/
def StepAlike (comparison : Comparison) (contexts contexts' : List Nat) (part part' : Build Unit) :
    Prop :=
  ∀ state state' last last' : State, Twin comparison contexts contexts' state state' →
    part state = .ok ((), last) → part' state' = .ok ((), last') →
    last.strings <+: comparison.texts → last'.strings <+: comparison.texts' →
    Twin comparison contexts contexts' last last'

namespace StepAlike

/-- Nothing happens on both sides. -/
theorem pure : StepAlike comparison contexts contexts' (Pure.pure ()) (Pure.pure ()) := by
  intro state state' last last' twin run run' _ _
  obtain ⟨-, rfl⟩ := Prod.mk.inj (pure_ok.mp run)
  obtain ⟨-, rfl⟩ := Prod.mk.inj (pure_ok.mp run')
  exact twin

/-- A scope is opened on both sides for what comes next. -/
theorem inScope {kind : ScopeKind} {label : Bytes} {body body' : Context → Build Unit}
    (inner : ∀ scope scope', StepAlike comparison (scope :: context :: contexts)
      (scope' :: context' :: contexts') (body scope) (body' scope')) :
    StepAlike comparison (context :: contexts) (context' :: contexts')
      (Lowering.inScope context kind label body) (Lowering.inScope context' kind label body') := by
  intro state state' last last' twin run run' fits fits'
  have bodyRun := (inScope_ok.mp run).2
  have bodyRun' := (inScope_ok.mp run').2
  exact (inner _ _ _ _ _ _ (twin.openScope kind label) bodyRun bodyRun' fits fits').leave

/-- A block is opened on both sides for what comes next. -/
theorem behindOpened {next next' : Unit → Build Unit}
    (inner : StepAlike comparison contexts contexts' (next ()) (next' ())) :
    StepAlike comparison contexts contexts' (openBlock >>= next) (openBlock >>= next') := by
  intro state state' last last' twin run run' fits fits'
  rw [openBlock_bind_ok] at run run'
  exact inner _ _ _ _ twin.opened run run' fits fits'

end StepAlike

section Variables

/-- The zero of a type is the same on both sides. -/
theorem Twin.zero (twin : Twin comparison contexts contexts' state state') (type : BasicType)
    (fits : (state.addZero type).strings <+: comparison.texts)
    (fits' : (state'.addZero type).strings <+: comparison.texts') :
    Twin comparison contexts contexts' (state.addZero type) (state'.addZero type) ∧
      zeroOf state' type = (zeroOf state type).relocated comparison.place := by
  cases type with
  | string =>
      obtain ⟨later, index⟩ := twin.addText fits fits'
      exact ⟨later, congrArg Value.string index⟩
  | int | float | bool | void | invalid => exact ⟨twin.skip, rfl⟩

theorem Begins.alike {declaration : VarDecl} {middle middle' : State}
    (twin : Twin comparison (context :: contexts) (context' :: contexts') state state')
    (begins : Begins context state declaration value middle)
    (begins' : Begins context' state' declaration value' middle')
    (fits : middle.strings <+: comparison.texts) (fits' : middle'.strings <+: comparison.texts') :
    SameValue comparison (context :: contexts) (context' :: contexts') value value' middle
      middle' := by
  cases begins with
  | given initial run notVoid =>
      cases begins' with
      | given initial' run' notVoid' =>
          rw [initial] at initial'
          obtain rfl := Option.some.inj initial'
          exact exprAlike _ _ _ _ _ _ _ twin run run' fits fits'
      | zero initial' =>
          rw [initial] at initial'
          cases initial'
  | zero initial annotated named notVoid isZero =>
      cases begins' with
      | given initial' =>
          rw [initial] at initial'
          cases initial'
      | zero initial' annotated' named' notVoid' isZero' =>
          rw [annotated] at annotated'
          obtain rfl := Option.some.inj annotated'
          rw [named] at named'
          obtain rfl := Option.some.inj named'
          obtain ⟨later, same⟩ := twin.zero _ fits fits'
          exact ⟨later, by rw [isZero, isZero', same]⟩

theorem StepAlike.lowerVariable (declaration : VarDecl) :
    StepAlike comparison (context :: contexts) (context' :: contexts')
      (Lowering.lowerVariable context declaration)
        (Lowering.lowerVariable context' declaration) := by
  intro state state' last last' twin run run' fits fits'
  obtain ⟨value, middle, symbol, table, begins, declares, rfl⟩ := lowerVariable_ok run
  obtain ⟨value', middle', symbol', table', begins', declares', rfl⟩ := lowerVariable_ok run'
  have done := begins.alike twin begins' fits fits'
  have types : value'.type = value.type := by rw [done.value_eq, Value.type_relocated]
  rw [types] at declares' ⊢
  exact done.twin.hold rfl rfl rfl ⟨_, rfl⟩ ⟨_, rfl⟩ declares declares' done.value_eq

theorem StepAlike.lowerStart (start : LoopStart) :
    StepAlike comparison (context :: contexts) (context' :: contexts')
      (Lowering.lowerStart context start) (Lowering.lowerStart context' start) := by
  cases start with
  | «variable» declaration => exact .lowerVariable declaration
  | expression statement =>
      intro state state' last last' twin run run' fits fits'
      obtain ⟨_, middle, valueRun, finished⟩ := bind_ok.mp run
      obtain ⟨-, rfl⟩ := Prod.mk.inj (pure_ok.mp finished)
      obtain ⟨_, middle', valueRun', finished'⟩ := bind_ok.mp run'
      obtain ⟨-, rfl⟩ := Prod.mk.inj (pure_ok.mp finished')
      exact (exprAlike _ _ _ _ _ _ _ twin valueRun valueRun' fits fits').twin

end Variables

section Branches

theorem StepAlike.lowerWhen {consequent consequent' : Build Unit}
    (alike : StepAlike comparison contexts contexts' consequent consequent')
    (same : value' = value.relocated comparison.place) :
    StepAlike comparison contexts contexts' (Lowering.lowerWhen value consequent)
      (Lowering.lowerWhen value' consequent') := by
  intro state state' last last' twin run run' fits fits'
  obtain ⟨_, _, _, middle, rfl, rfl, rfl, consequentRun, rfl⟩ := lowerWhen_ok run
  obtain ⟨_, _, _, middle', rfl, rfl, rfl, consequentRun', rfl⟩ := lowerWhen_ok run'
  have first := twin.blockName "if.then"
  have second := (twin.addBlock "if.then").blockName "if.end"
  have begins :=
    ((((twin.addBlock "if.then").addBlock "if.end").branch same first second).enter first)
  have ends :=
    alike _ _ _ _ begins consequentRun consequentRun' (by simpa using fits) (by simpa using fits')
  exact (ends.jumpIfOpen second).enter second

theorem StepAlike.lowerChoice {consequent consequent' alternative alternative' : Build Unit}
    (alike : StepAlike comparison contexts contexts' consequent consequent')
    (otherwise : StepAlike comparison contexts contexts' alternative alternative')
    (lengthens : Lengthens alternative) (lengthens' : Lengthens alternative')
    (same : value' = value.relocated comparison.place) :
    StepAlike comparison contexts contexts' (Lowering.lowerChoice value consequent alternative)
      (Lowering.lowerChoice value' consequent' alternative') := by
  intro state state' last last' twin run run' fits fits'
  obtain ⟨_, _, _, _, middle, after, rfl, rfl, rfl, rfl, consequentRun, alternativeRun, rfl⟩ :=
    lowerChoice_ok run
  obtain ⟨_, _, _, _, middle', after', rfl, rfl, rfl, rfl, consequentRun', alternativeRun', rfl⟩ :=
    lowerChoice_ok run'
  have first := twin.blockName "if.then"
  have second := (twin.addBlock "if.then").blockName "if.else"
  have third := ((twin.addBlock "if.then").addBlock "if.else").blockName "if.end"
  have begins :=
    ((((twin.addBlock "if.then").addBlock "if.else").addBlock "if.end").branch same first
    second).enter first
  have fitsAfter : after.strings <+: comparison.texts := by simpa using fits
  have fitsAfter' : after'.strings <+: comparison.texts' := by simpa using fits'
  have grows := lengthens _ _ _ alternativeRun
  have grows' := lengthens' _ _ _ alternativeRun'
  have halfway := alike _ _ _ _ begins consequentRun consequentRun'
    (State.strings_jumpIfOpen ▸ grows.within fitsAfter)
    (State.strings_jumpIfOpen ▸ grows'.within fitsAfter')
  have ends := otherwise _ _ _ _ ((halfway.jumpIfOpen third).enter second) alternativeRun
    alternativeRun' fitsAfter fitsAfter'
  exact (ends.jumpIfOpen third).enter third

end Branches

section Loops

theorem StepAlike.lowerTest {bodyBlock bodyBlock' endBlock endBlock' : BlockName}
    (first : bodyBlock' = bodyBlock) (second : endBlock' = endBlock) (condition : Option Expr) :
    StepAlike comparison (context :: contexts) (context' :: contexts')
      (Lowering.lowerTest context bodyBlock endBlock condition)
      (Lowering.lowerTest context' bodyBlock' endBlock' condition) := by
  intro state state' last last' twin run run' fits fits'
  rcases lowerTest_ok run with ⟨rfl, rfl⟩ | ⟨expression, value, middle, rfl, valueRun, -, rfl⟩ <;>
    rcases lowerTest_ok run' with ⟨absent, rfl⟩ | ⟨_, value', middle', present, valueRun', -, rfl⟩
  · exact twin.jump first
  · cases present
  · cases absent
  · obtain rfl := Option.some.inj present
    have done := exprAlike _ _ _ _ _ _ _ twin valueRun valueRun' fits fits'
    exact done.twin.branch done.value_eq first second

theorem StepAlike.lowerAdvance {postBlock postBlock' condBlock condBlock' : BlockName}
    (first : postBlock' = postBlock) (second : condBlock' = condBlock) (advance : Option Expr) :
    StepAlike comparison (context :: contexts) (context' :: contexts')
      (Lowering.lowerAdvance context postBlock condBlock advance)
      (Lowering.lowerAdvance context' postBlock' condBlock' advance) := by
  intro state state' last last' twin run run' fits fits'
  rcases lowerAdvance_ok run with ⟨rfl, rfl⟩ | ⟨expression, value, middle, rfl, valueRun, rfl⟩ <;>
    rcases lowerAdvance_ok run' with ⟨absent, rfl⟩ | ⟨_, value', middle', present, valueRun', rfl⟩
  · exact twin
  · cases present
  · cases absent
  · obtain rfl := Option.some.inj present
    have done := exprAlike _ _ _ _ _ _ _ (twin.enter first) valueRun valueRun' fits fits'
    exact done.twin.jump second

/-- The blocks of a loop have the same names on both sides, and its first round begins alike. -/
theorem Twin.header (twin : Twin comparison contexts contexts' state state')
    (advance : Option Expr) :
    state'.bodyName = state.bodyName ∧ state'.doneName advance = state.doneName advance ∧
      state'.nextName advance = state.nextName advance ∧
      Twin comparison contexts contexts' (state.header advance) (state'.header advance) := by
  have cond := twin.blockName "loop.cond"
  have two := (twin.addBlock "loop.cond").addBlock "loop.body"
  have post : Twin comparison contexts contexts' (state.addPost advance)
    (state'.addPost advance) := by
    unfold State.addPost
    split
    · exact two.addBlock "loop.post"
    · exact two
  refine ⟨(twin.addBlock "loop.cond").blockName "loop.body", post.blockName "loop.end", ?_,
    ((post.addBlock "loop.end").jump cond).enter cond⟩
  unfold State.nextName
  split
  · exact two.blockName "loop.post"
  · exact cond

theorem StepAlike.lowerRounds {condition advance : Option Expr}
    {body body' : LoopTargets → Build Unit}
    (alike : ∀ targets, StepAlike comparison (context :: contexts) (context' :: contexts')
      (body targets) (body' targets))
    (lengthens : ∀ targets, Lengthens (body targets))
      (lengthens' : ∀ targets, Lengthens (body' targets)) :
    StepAlike comparison (context :: contexts) (context' :: contexts')
      (Lowering.lowerRounds context condition advance body)
      (Lowering.lowerRounds context' condition advance body') := by
  intro state state' last last' twin run run' fits fits'
  obtain ⟨tested, middle, after, testRun, bodyRun, advanceRun, rfl⟩ := lowerRounds_ok run
  obtain ⟨tested', middle', after', testRun', bodyRun', advanceRun', rfl⟩ := lowerRounds_ok run'
  obtain ⟨bodies, done, next, begins⟩ := twin.header advance
  have fitsMiddle : middle.strings <+: comparison.texts := State.strings_jumpIfOpen ▸
    (lengthens_lowerAdvance _ _ _ _ _ _ advanceRun).within fits
  have fitsMiddle' : middle'.strings <+: comparison.texts' := State.strings_jumpIfOpen ▸
    (lengthens_lowerAdvance _ _ _ _ _ _ advanceRun').within fits'
  have first := StepAlike.lowerTest bodies done condition _ _ _ _ begins testRun testRun'
    ((lengthens _ _ _ _ bodyRun).within fitsMiddle)
      ((lengthens' _ _ _ _ bodyRun').within fitsMiddle')
  rw [done, next] at bodyRun'
  have round := alike _ _ _ _ _ (first.enter bodies) bodyRun bodyRun' fitsMiddle fitsMiddle'
  have ends := StepAlike.lowerAdvance next (twin.blockName "loop.cond") advance _ _ _ _
    (round.jumpIfOpen next) advanceRun advanceRun' fits fits'
  exact ends.enter done

end Loops

section Statements

theorem StepAlike.lowerReturn (first : Position) (result : Option Expr) :
    StepAlike comparison (context :: contexts) (context' :: contexts')
      (Lowering.lowerReturn context first result) (Lowering.lowerReturn context' first result) := by
  intro state state' last last' twin run run' fits fits'
  rcases lowerReturn_ok run with
    ⟨rfl, -, rfl⟩ | ⟨expression, value, middle, rfl, valueRun, -, -, -, rfl⟩ <;>
    rcases lowerReturn_ok run' with
      ⟨absent, -, rfl⟩ | ⟨_, value', middle', present, valueRun', -, -, -, rfl⟩
  · exact twin.emit rfl
  · cases present
  · cases absent
  · obtain rfl := Option.some.inj present
    have done := exprAlike _ _ _ _ _ _ _ twin valueRun valueRun' fits fits'
    exact done.twin.emit (by rw [done.value_eq]; rfl)

/-- Both sides lower statements alike, in whatever scope they stand. -/
def BodyAlike (comparison : Comparison) (statements : List Stmt) : Prop :=
  ∀ (loop : Option LoopTargets) (context context' : Nat) (contexts contexts' : List Nat),
    StepAlike comparison (context :: contexts) (context' :: contexts')
      (lowerStmts context loop statements) (lowerStmts context' loop statements)

/-- Both sides lower a statement alike, in whatever scope it stands. -/
def StmtAlike (comparison : Comparison) (statement : Stmt) : Prop :=
  ∀ (loop : Option LoopTargets) (context context' : Nat) (contexts contexts' : List Nat),
    StepAlike comparison (context :: contexts) (context' :: contexts')
      (lowerStmt context loop statement) (lowerStmt context' loop statement)

theorem BodyAlike.inScope {statements : List Stmt} (alike : BodyAlike comparison statements)
    {loop : Option LoopTargets} {kind : ScopeKind} {label : Bytes} :
    StepAlike comparison (context :: contexts) (context' :: contexts')
      (Lowering.inScope context kind label fun inner => lowerStmts inner loop statements)
      (Lowering.inScope context' kind label fun inner => lowerStmts inner loop statements) :=
  .inScope fun _ _ => alike _ _ _ _ _

namespace StmtAlike

theorem «variable» {declaration : VarDecl} : StmtAlike comparison (.variable declaration) := by
  intro loop context context' contexts contexts'
  rw [lowerStmt, lowerStmt]
  exact .behindOpened (.lowerVariable declaration)

theorem expression {statement : ExprStmt} : StmtAlike comparison (.expression statement) := by
  intro loop context context' contexts contexts'
  rw [lowerStmt, lowerStmt]
  exact .behindOpened (.lowerStart (.expression statement))

theorem block {opening closing : Token} {body : List Stmt} (alike : BodyAlike comparison body) :
    StmtAlike comparison (.block opening body closing) := by
  intro loop context context' contexts contexts'
  rw [lowerStmt, lowerStmt]
  exact .behindOpened alike.inScope

theorem conditional {first : Position} {condition : Expr} {opening closing : Token}
    {consequent : List Stmt} (alike : BodyAlike comparison consequent) :
    StmtAlike comparison (.conditional first condition opening consequent closing none) := by
  intro loop context context' contexts contexts' state state' last last' twin run run' fits fits'
  obtain ⟨value, middle, valueRun, -, whenRun⟩ := lowerStmt_when_ok run
  obtain ⟨value', middle', valueRun', -, whenRun'⟩ := lowerStmt_when_ok run'
  have grows : ∀ {context : Nat} {value : Value}, Lengthens (lowerWhen value
      (Lowering.inScope context .block "if.then" fun inner => lowerStmts inner loop consequent)) :=
    lengthens_lowerWhen _ (.inScope fun _ => lengthens_lowerStmts consequent)
  have done := exprAlike _ _ _ _ _ _ _ twin.opened valueRun valueRun'
    ((grows _ _ _ whenRun).within fits) ((grows _ _ _ whenRun').within fits')
  exact StepAlike.lowerWhen alike.inScope done.value_eq _ _ _ _ done.twin whenRun whenRun'
    fits fits'

/-- What stands behind `else` is lowered alike. -/
theorem alternative {alternative : Stmt} (whole : StmtAlike comparison alternative)
    (body : ∀ opening statements closing, alternative = .block opening statements closing →
      BodyAlike comparison statements) {loop : Option LoopTargets} :
    StepAlike comparison (context :: contexts) (context' :: contexts')
      (lowerAlternative context loop alternative) (lowerAlternative context' loop alternative) := by
  unfold lowerAlternative
  split
  · exact (body _ _ _ rfl).inScope
  · exact whole _ _ _ _ _

theorem lengthens_lowerAlternative (alternative : Stmt) {loop : Option LoopTargets} :
    Lengthens (lowerAlternative context loop alternative) := by
  unfold lowerAlternative
  split
  · exact .inScope fun _ => lengthens_lowerStmts _
  · exact lengthens_lowerStmt _

theorem choice {first : Position} {condition : Expr} {opening closing : Token}
    {consequent : List Stmt} {alternative : Stmt} (alike : BodyAlike comparison consequent)
    (whole : StmtAlike comparison alternative)
    (body : ∀ opening statements closing, alternative = .block opening statements closing →
      BodyAlike comparison statements) :
    StmtAlike comparison
      (.conditional first condition opening consequent closing (some alternative)) := by
  intro loop context context' contexts contexts' state state' last last' twin run run' fits fits'
  obtain ⟨value, middle, valueRun, -, choiceRun⟩ := lowerStmt_choice_ok run
  obtain ⟨value', middle', valueRun', -, choiceRun'⟩ := lowerStmt_choice_ok run'
  have grows : ∀ {context : Nat} {value : Value}, Lengthens (lowerChoice value
      (Lowering.inScope context .block "if.then" fun inner => lowerStmts inner loop consequent)
      (lowerAlternative context loop alternative)) :=
    lengthens_lowerChoice _ (.inScope fun _ => lengthens_lowerStmts consequent)
      (lengthens_lowerAlternative alternative)
  have done := exprAlike _ _ _ _ _ _ _ twin.opened valueRun valueRun'
    ((grows _ _ _ choiceRun).within fits) ((grows _ _ _ choiceRun').within fits')
  exact StepAlike.lowerChoice alike.inScope (whole.alternative body)
    (lengthens_lowerAlternative alternative) (lengthens_lowerAlternative alternative) done.value_eq
    _ _ _ _ done.twin choiceRun choiceRun' fits fits'

/-- What a loop does before its first round is done alike. -/
theorem start {start : Option LoopStart} :
    StepAlike comparison (context :: contexts) (context' :: contexts')
      (start.forM (lowerStart context)) (start.forM (lowerStart context')) := by
  cases start with
  | none => exact .pure
  | some first => exact .lowerStart first

theorem loop {keyword opening closing : Token} {start : Option LoopStart}
    {condition advance : Option Expr} {body : List Stmt} (alike : BodyAlike comparison body) :
    StmtAlike comparison (.loop keyword start condition advance opening body closing) := by
  intro loop context context' contexts contexts' state state' last last' twin run run' fits fits'
  obtain ⟨middle, startRun, roundsRun⟩ := lowerStmt_loop_ok run
  obtain ⟨middle', startRun', roundsRun'⟩ := lowerStmt_loop_ok run'
  have lengthens : ∀ (context : Nat) (targets : LoopTargets), Lengthens
      (Lowering.inScope context .block "loop.body" fun inner => lowerStmts inner
        (some targets) body) :=
    fun _ _ => .inScope fun _ => lengthens_lowerStmts body
  have begins := StmtAlike.start _ _ _ _ (twin.opened.openScope .loop "loop") startRun startRun'
    ((lengthens_lowerRounds _ _ (lengthens _) _ _ _ roundsRun).within fits)
    ((lengthens_lowerRounds _ _ (lengthens _) _ _ _ roundsRun').within fits')
  have ends :=
    StepAlike.lowerRounds (fun _ => alike.inScope) (lengthens _) (lengthens _) _ _ _ _ begins
    roundsRun roundsRun' fits fits'
  exact ends.leave

theorem «return» {first : Position} {result : Option Expr} {semicolon : Token} :
    StmtAlike comparison (.return_ first result semicolon) := by
  intro loop context context' contexts contexts'
  rw [lowerStmt, lowerStmt]
  exact .behindOpened (.lowerReturn first result)

/-- A jump out of a round goes to the same block on both sides. -/
theorem jump {target : BlockName} :
    StepAlike comparison contexts contexts' (Lowering.jump target) (Lowering.jump target) := by
  intro state state' last last' twin run run' _ _
  obtain ⟨-, rfl⟩ := Prod.mk.inj (jump_ok.mp run)
  obtain ⟨-, rfl⟩ := Prod.mk.inj (jump_ok.mp run')
  exact twin.jump rfl

theorem refused {position position' : Position} {fault : LoweringFault} :
    StepAlike comparison contexts contexts' (refuse context position fault)
      (refuse context' position' fault) :=
  fun _ _ _ _ _ run _ _ _ => absurd run refuse_ok

theorem «break» {keyword : Token} : StmtAlike comparison (.break_ keyword) := by
  intro loop context context' contexts contexts'
  unfold lowerStmt
  cases loop with
  | none => exact .behindOpened refused
  | some targets => exact .behindOpened jump

theorem «continue» {keyword : Token} : StmtAlike comparison (.continue_ keyword) := by
  intro loop context context' contexts contexts'
  unfold lowerStmt
  cases loop with
  | none => exact .behindOpened refused
  | some targets => exact .behindOpened jump

theorem function {first : Position} : StmtAlike comparison (.function first) := by
  intro loop context context' contexts contexts'
  rw [lowerStmt, lowerStmt]
  exact .behindOpened refused

end StmtAlike

theorem BodyAlike.nil : BodyAlike comparison [] := fun _ _ _ _ _ => .pure

theorem BodyAlike.cons {statement : Stmt} {rest : List Stmt}
    (first : StmtAlike comparison statement)
    (others : BodyAlike comparison rest) : BodyAlike comparison (statement :: rest) := by
  intro loop context context' contexts contexts' state state' last last' twin run run' fits fits'
  rw [lowerStmts] at run run'
  obtain ⟨_, middle, firstRun, restRun⟩ := bind_ok.mp run
  obtain ⟨_, middle', firstRun', restRun'⟩ := bind_ok.mp run'
  have halfway := first _ _ _ _ _ _ _ _ _ twin firstRun firstRun'
    ((lengthens_lowerStmts rest _ _ _ restRun).within fits)
    ((lengthens_lowerStmts rest _ _ _ restRun').within fits')
  exact others _ _ _ _ _ _ _ _ _ halfway restRun restRun' fits fits'

mutual

/-- **A statement is lowered alike on both sides.** -/
theorem stmtAlike (statement : Stmt) : StmtAlike comparison statement :=
  match statement with
  | .variable _ => .variable
  | .expression _ => .expression
  | .block _ body _ => .block (bodyAlike body)
  | .conditional _ _ _ consequent _ none => .conditional (bodyAlike consequent)
  | .conditional _ _ _ consequent _ (some alternative) =>
      .choice (bodyAlike consequent) (stmtAlike alternative) fun _ statements _ same => by
        subst same
        exact bodyAlike statements
  | .loop _ _ _ _ _ body _ => .loop (bodyAlike body)
  | .return_ _ _ _ => .return
  | .break_ _ => .break
  | .continue_ _ => .continue
  | .function _ => .function
termination_by sizeOf statement

/-- **Statements are lowered alike on both sides.** -/
theorem bodyAlike (statements : List Stmt) : BodyAlike comparison statements :=
  match statements with
  | [] => .nil
  | statement :: rest => .cons (stmtAlike statement) (bodyAlike rest)
termination_by sizeOf statements

end

end Statements

end ScriptCompiler.Lowering
