import ScriptCompiler.Proofs.Statics.Programs

/-!
# Calls of the output function

A call of the output function is a call of its name where no declaration hides the name.  Which
calls of a program are of this kind is a matter of its scopes alone (`Program.outputs`), and
lowering declares the external function behind them exactly if there is one
(`externals_ne_nil_iff`).
-/

namespace ScriptCompiler

open Semantics

mutual

/-- Whether a call of a name occurs in an expression. -/
def Expr.calls (name : Bytes) : Expr → Bool
  | .literal .. | .variable _ => false
  | .group _ inner _ => inner.calls name
  | .binary left _ right | .logical left _ right => left.calls name || right.calls name
  | .unary _ operand => operand.calls name
  | .assignment _ _ value => value.calls name
  | .call callee arguments _ => callee.name == name || Expr.callsAny name arguments

/-- Whether a call of a name occurs in one of several expressions. -/
def Expr.callsAny (name : Bytes) : List Expr → Bool
  | [] => false
  | expression :: rest => expression.calls name || Expr.callsAny name rest

end

/-- Whether an expression calls the output function, where its name is hidden or not. -/
def Expr.outputs (hidden : Bool) (expression : Expr) : Bool :=
  !hidden && expression.calls outputName

/-- Whether a declaration hides the output function. -/
def VarDecl.hides (declaration : VarDecl) : Bool := declaration.name.name == outputName

namespace LoopStart

/-- Whether what a loop does at first calls the output function. -/
def outputs (hidden : Bool) : LoopStart → Bool
  | .variable declaration => declaration.initial.any (Expr.outputs hidden)
  | .expression statement => statement.expression.outputs hidden

/-- Whether what a loop does at first hides the output function from the loop. -/
def hides : LoopStart → Bool
  | .variable declaration => declaration.hides
  | .expression _ => false

end LoopStart

namespace Stmt

/-- Whether a statement hides the output function from the statements behind it. -/
def hides : Stmt → Bool
  | .variable declaration => declaration.hides
  | .conditional _ _ _ _ _ (some alternative) => alternative.hides
  | _ => false

mutual

/-- Whether a statement calls the output function, where its name is hidden or not. -/
def outputs (hidden : Bool) : Stmt → Bool
  | .expression statement => statement.expression.outputs hidden
  | .variable declaration => declaration.initial.any (Expr.outputs hidden)
  | .block _ body _ => outputsAny hidden body
  | .conditional _ condition _ consequent _ none =>
      condition.outputs hidden || outputsAny hidden consequent
  | .conditional _ condition _ consequent _ (some alternative) =>
      condition.outputs hidden || outputsAny hidden consequent || alternative.outputs hidden
  | .loop _ start condition advance _ body _ =>
      let within := hidden || start.any LoopStart.hides
      start.any (LoopStart.outputs hidden) || condition.any (Expr.outputs within) ||
        outputsAny within body || advance.any (Expr.outputs within)
  | .return_ _ value _ => value.any (Expr.outputs hidden)
  | .break_ _ | .continue_ _ | .function _ => false

/-- Whether one of several statements calls the output function; each hides it from those behind. -/
def outputsAny (hidden : Bool) : List Stmt → Bool
  | [] => false
  | statement :: rest => statement.outputs hidden || outputsAny (hidden || statement.hides) rest

end

end Stmt

/-- Whether a function calls the output function, inside scopes that hide its name or not. -/
def FunctionDecl.outputs (hidden : Bool) (declaration : FunctionDecl) : Bool :=
  Stmt.outputsAny (hidden || declaration.params.any fun param => param.name.name == outputName)
    declaration.body

/-- Whether a program calls the output function: no function of its own may have the name, and the
variables at top level hide it from the program's own entry function. -/
def Program.outputs (options : EntryOptions) (program : Program) : Bool :=
  let hidden := program.functions.any fun declaration => declaration.name.name == outputName
  Stmt.outputsAny hidden program.statements ||
    program.functions.any fun declaration =>
      declaration.outputs (hidden ||
        (Lowering.isEntry options declaration && program.statements.any Stmt.hides))

/-- Whether the output function is hidden in an environment. -/
def Statics.Env.hides (env : Statics.Env) : Bool := (env.find? outputName).isSome

namespace Lowering

open IR Build Statics

variable {α β γ δ : Type} {scene : Scene} {env outer : Env} {own : Scope} {context : Context}

/-! ### Declaring the external function -/

/-- From one state to another the external function is declared exactly if something says so. -/
def Adds (state last : State) (told : Bool) : Prop :=
  last.externals ≠ [] ↔ state.externals ≠ [] ∨ told = true

/-- A part of lowering declares the external function exactly if something says so. -/
def Tells (before : State → Prop) (part : Build α) (told : Bool) : Prop :=
  ∀ ⦃state last : State⦄ ⦃value : α⦄, before state → part state = .ok (value, last) →
    Adds state last told

/-- A part of lowering declares nothing outside of the module. -/
def Silent (part : Build α) : Prop :=
  ∀ ⦃state last : State⦄ ⦃value : α⦄, part state = .ok (value, last) →
    last.externals = state.externals

section Logic

variable {before middle : State → Prop} {part : Build α} {told told' : Bool}

theorem Silent.tells (silent : Silent part) : Tells before part false := by
  intro state last value _ run
  simp [Adds, silent run]

theorem Tells.congr (tells : Tells before part told) (same : told = told') :
    Tells before part told' :=
  same ▸ tells

theorem Silent.bind {next : α → Build β} (first : Silent part)
    (second : ∀ value, Silent (next value)) :
    Silent (part >>= next) := by
  intro state last value run
  obtain ⟨found, middle, firstRun, secondRun⟩ := bind_ok.mp run
  exact (second found secondRun).trans (first firstRun)

theorem Tells.bind {next : α → Build β} (first : Tells before part told)
    (leads : ∀ ⦃state last : State⦄ ⦃value : α⦄, before state → part state = .ok (value, last) →
      middle last)
    (second : ∀ value, Tells middle (next value) told') :
    Tells before (part >>= next) (told || told') := by
  intro state last value starts run
  obtain ⟨found, between, firstRun, secondRun⟩ := bind_ok.mp run
  have one := first starts firstRun
  have other := second found (leads starts firstRun) secondRun
  unfold Adds at one other ⊢
  rw [other, one, Bool.or_eq_true, or_assoc]

/-- What is silent behind a part told nothing. -/
theorem Tells.silently {next : α → Build β} (first : Tells before part told)
    (silent : ∀ value, Silent (next value)) : Tells before (part >>= next) told := by
  have whole := @Tells.bind _ _ _ (fun _ => True) _ _ _ _ first (fun _ _ _ _ _ => trivial)
    fun value => (silent value).tells
  rwa [Bool.or_false] at whole

/-- What is quiet and silent before a part told nothing. -/
theorem Quiet.then_tells {yields : α → Prop} {next : α → Build β} (quiet : Quiet part yields)
    (silent : Silent part) (tells : ∀ value, Tells (State.Sees scene env) (next value) told) :
    Tells (State.Sees scene env) (part >>= next) told := by
  have whole := (@Silent.tells _ (State.Sees scene env) _ silent).bind
    (fun _ _ _ sees run => (quiet.tests.sound sees run).elim fun _ shows => shows.2) tells
  rwa [Bool.false_or] at whole

theorem Tells.types_bind {part : Build Value} {rule : BasicType → Prop} {next : Value → Build β}
    (first : Tells (State.Sees scene env) part told) (types : Types scene env part rule)
    (second : ∀ value, Tells (State.Sees scene env) (next value) told') :
    Tells (State.Sees scene env) (part >>= next) (told || told') :=
  first.bind (fun _ _ _ sees run => (types.sound sees run).elim fun _ shows => shows.2.2) second

/-- What is silent and only checks something says nothing. -/
theorem Decides.then_tells {test : Prop} {next : α → Build β} (tests : Tests scene env part test)
    (silent : Silent part) (tells : ∀ value, Tells (State.Sees scene env) (next value) told) :
    Tells (State.Sees scene env) (part >>= next) told := by
  have whole := (@Silent.tells _ (State.Sees scene env) _ silent).bind
    (fun _ _ _ sees run => (tests.sound sees run).elim fun _ shows => shows.2) tells
  rwa [Bool.false_or] at whole

theorem Tells.tests_bind {test : Prop} {next : α → Build β}
    (first : Tells (State.Sees scene env) part told) (tests : Tests scene env part test)
    (second : ∀ value, Tells (State.Sees scene env) (next value) told') :
    Tells (State.Sees scene env) (part >>= next) (told || told') :=
  first.bind (fun _ _ _ sees run => (tests.sound sees run).elim fun _ shows => shows.2) second

/-- What follows a part may depend on what the part declares. -/
theorem Tells.extends_bind {rule : Scope → Prop} {next : α → Build β}
    (first : Tells (State.Sees scene (own :: outer)) part told)
    (extends_ : Extends scene outer own part rule)
    (second : ∀ scope, rule scope → ∀ value,
      Tells (State.Sees scene (scope :: outer)) (next value) told') :
    Tells (State.Sees scene (own :: outer)) (part >>= next) (told || told') := by
  refine @Tells.bind _ _ _ (fun state => ∃ scope, rule scope ∧ state.Sees scene (scope :: outer))
    _ _ _ _ first (fun _ _ _ sees run => extends_.sound sees run)
    fun value state last final sees run => ?_
  obtain ⟨scope, applies, sees⟩ := sees
  exact second scope applies value sees run

end Logic

section Primitives

theorem Silent.pure (value : α) : Silent (pure value : Build α) := by
  intro state last found run
  cases pure_ok.mp run
  rfl

theorem Silent.refuse {position : Position} {fault : LoweringFault} :
    Silent (Lowering.refuse context position fault : Build α) :=
  fun _ _ _ run => absurd run refuse_ok

theorem Silent.emit (instr : Instr) : Silent (Lowering.emit instr) := by
  intro state last _ run
  cases emit_ok.mp run
  rfl

theorem Silent.newBlock (label : Bytes) : Silent (Lowering.newBlock label) := by
  intro state last _ run
  cases newBlock_ok.mp run
  rfl

theorem Silent.enter (name : BlockName) : Silent (Lowering.enter name) := by
  intro state last _ run
  cases enter_ok.mp run
  rfl

theorem Silent.jump (target : BlockName) : Silent (Lowering.jump target) := by
  intro state last _ run
  cases jump_ok.mp run
  rfl

theorem Silent.branch (condition : Value) (ifTrue ifFalse : BlockName) :
    Silent (Lowering.branch condition ifTrue ifFalse) := by
  intro state last _ run
  cases branch_ok.mp run
  rfl

theorem Silent.jumpIfOpen (target : BlockName) : Silent (Lowering.jumpIfOpen target) := by
  intro state last _ run
  cases jumpIfOpen_ok.mp run
  unfold State.jumpIfOpen
  split <;> rfl

theorem Silent.openBlock : Silent Lowering.openBlock := by
  intro state last _ run
  cases openBlock_ok.mp run
  unfold State.opened
  split <;> rfl

theorem Silent.onTable {step : ScopeTable → Except Diagnostic (α × ScopeTable)} :
    Silent (Lowering.onTable context step) := by
  intro state last _ run
  obtain ⟨-, table, -, rfl⟩ := onTable_ok.mp run
  rfl

theorem Silent.holdValue {symbol : Symbol} {type : BasicType} {value : Value} :
    Silent (Lowering.holdValue symbol type value) := by
  intro state last _ run
  cases holdValue_ok.mp run
  rfl

theorem Silent.finishFunction : Silent Lowering.finishFunction := by
  have closes : ∀ (state : State) (block : Block),
      (state.close block).externals = state.externals := by
    intro state block
    unfold State.close State.returnZero
    split
    · rfl
    · split
      · rfl
      · cases (state.enter block.name).function.result <;> rfl
  have closesAll : ∀ (blocks : List Block) (state : State),
      (blocks.foldl State.close state).externals = state.externals := by
    intro blocks
    induction blocks with
    | nil => exact fun _ => rfl
    | cons block rest ih => exact fun state => (ih (state.close block)).trans (closes state block)
  intro state last _ run
  cases finishFunction_ok.mp run
  exact closesAll _ _

end Primitives

/-! ### Expressions -/

theorem hides_cons (scope : Scope) (env : Env) :
    Env.hides (scope :: env) = (scope.names.contains Semantics.outputName || env.hides) := by
  rw [Env.hides, Env.hides, Env.find?, List.findSome?_cons, Scope.names]
  cases found : scope.lookup Semantics.outputName with
  | none =>
      have absent : Semantics.outputName ∉ scope.map Prod.fst := by
        rintro listed
        obtain ⟨entry, member, same⟩ := List.mem_map.mp listed
        have differs := List.lookup_eq_none_iff.mp found entry member
        simp [same] at differs
      simp [absent, Env.find?]
  | some denoted =>
      obtain ⟨front, back, rfl, -⟩ := List.lookup_eq_some_iff.mp found
      simp

section Expressions

theorem Silent.newSlot (type : BasicType) (name : Bytes) : Silent (Lowering.newSlot type name) := by
  intro state last _ run
  cases newSlot_ok.mp run
  rfl

theorem Silent.slotOf (symbol : Symbol) : Silent (Lowering.slotOf symbol) := by
  intro state last _ run
  obtain ⟨_, -, same⟩ := slotOf_ok.mp run
  cases same
  rfl

theorem Silent.loadSlot (slot : Place) : Silent (Lowering.loadSlot slot) := by
  intro state last _ run
  cases loadSlot_ok.mp run
  rfl

theorem Silent.lookupVariable {identifier : Identifier} :
    Silent (Lowering.lookupVariable context identifier) := by
  intro state last _ run
  obtain ⟨_, -, -, -, rfl⟩ := lookupVariable_ok run
  rfl

theorem Silent.applyBinary {operator : TokenKind} {lexeme : Bytes} {position : Position}
    {left right : Value} :
    Silent (Lowering.applyBinary context operator lexeme position left right) := by
  intro state last _ run
  obtain ⟨-, _, -, _, -, -, rfl⟩ := applyBinary_ok run
  rfl

theorem Silent.applyUnary {operator : Token} {operand : Value} :
    Silent (Lowering.applyUnary context operator operand) := by
  intro state last _ run
  obtain ⟨_, -, _, -, -, rfl⟩ := applyUnary_ok run
  rfl

theorem Silent.requireTruth {operator : Token} {place : Position} {value : Value} :
    Silent (Lowering.requireTruth context operator place value) := by
  intro state last _ run
  obtain ⟨-, rfl⟩ := requireTruth_ok run
  rfl

/-- A logical operator declares what its right operand does. -/
theorem lowerLogical_tells {operator : Token} {place : Position} {first : Value} {told : Bool}
    {right : Build Value} (tells : Tells (State.Sees scene env) right told) :
    Tells (State.Sees scene env) (lowerLogical context operator place first right) told := by
  have quiet : ∀ conjunction rest done,
      Quiet (branchLogical conjunction first rest done) fun _ => True := by
    intro conjunction rest done
    cases conjunction with
    | true => exact .branch _ _ _
    | false => exact .branch _ _ _
  have silent : ∀ conjunction rest done, Silent (branchLogical conjunction first rest done) := by
    intro conjunction rest done
    cases conjunction with
    | true => exact .branch _ _ _
    | false => exact .branch _ _ _
  refine (Quiet.newSlot .bool _).then_tells (.newSlot _ _) fun slot =>
    (Quiet.emit _).then_tells (.emit _) fun _ =>
      (Quiet.newBlock _).then_tells (.newBlock _) fun rest =>
    (Quiet.newBlock _).then_tells (.newBlock _) fun done =>
    (quiet _ rest done).then_tells (silent _ rest done) fun _ =>
    (Quiet.enter rest).then_tells (.enter rest) fun _ => tells.silently fun second => ?_
  exact Silent.requireTruth.bind fun _ => (Silent.emit _).bind fun _ =>
    (Silent.jump done).bind fun _ =>
    (Silent.enter done).bind fun _ => Silent.loadSlot slot

mutual

/-- **Lowering an expression declares the external function exactly if it calls the output
function.** -/
theorem lowerExpr_tells : ∀ expression : Expr,
    Tells (State.Sees (scene.inner context) env) (lowerExpr context expression)
      (expression.outputs env.hides)
  | .literal _ value => by
      have silent : Silent (lowerLiteral value) := by
        intro state last _ run
        cases lowerLiteral_ok.mp run
        cases value <;> rfl
      rw [lowerExpr]
      exact silent.tells.congr (by simp [Expr.outputs, Expr.calls])
  | .variable identifier => by
      have silent : Silent (lowerExpr context (.variable identifier)) := by
        rw [lowerExpr]
        exact Silent.lookupVariable.bind fun symbol => (Silent.slotOf symbol).bind fun slot =>
          .loadSlot slot
      exact silent.tells.congr (by simp [Expr.outputs, Expr.calls])
  | .group _ inner _ => by
      rw [lowerExpr]
      exact (lowerExpr_tells inner).congr (by simp [Expr.outputs, Expr.calls])
  | .binary left operator right => by
      rw [lowerExpr]
      exact ((lowerExpr_tells left).types_bind (lowerExpr_types left) fun _ =>
        (lowerExpr_tells right).silently fun _ => .applyBinary).congr
        (by simp [Expr.outputs, Expr.calls, Bool.and_or_distrib_left])
  | .logical left operator right => by
      rw [lowerExpr]
      exact ((lowerExpr_tells left).types_bind (lowerExpr_types left) fun _ =>
        requireTruth_tests.then_tells .requireTruth fun _ =>
          lowerLogical_tells (lowerExpr_tells right)).congr
        (by simp [Expr.outputs, Expr.calls, Bool.and_or_distrib_left])
  | .unary operator operand => by
      rw [lowerExpr]
      exact ((lowerExpr_tells operand).silently fun _ => .applyUnary).congr
        (by simp [Expr.outputs, Expr.calls])
  | .assignment target operator value => by
      intro state last found sees run
      obtain ⟨symbol, slot, assigned, middle, -, -, -, valueRun, stored⟩ :=
        lowerExpr_assignment_ok run
      have adds := lowerExpr_tells value sees.use valueRun
      rcases stored with ⟨-, -, -, rfl⟩ | ⟨arithmetic, after, -, applied, -, rfl⟩
      · exact adds
      · have same : after.externals = (middle.load slot).externals := Silent.applyBinary applied
        have adds' : Adds state after (value.outputs env.hides) := by
          rw [Adds, same]
          exact adds
        exact adds'
  | .call callee arguments closing => by
      intro state last found sees run
      rcases lowerExpr_call_ok run with ⟨symbol, signature, values, middle, finds, typed, count,
        valuesRun, -, rfl⟩ | ⟨argument, printed, middle, format, absent, isPrint, rfl, argumentRun,
          -, -, rfl⟩
      · -- A name that is found is hidden, so this is no call of the output function.
        have hidden : callee.name = Semantics.outputName → env.hides = true := by
          intro isOutput
          rw [Env.hides, ← isOutput, ← sees.find?, State.meaning?, finds]
          rfl
        have adds := lowerArguments_tells arguments count sees.use valuesRun
        have same : (middle.invoke symbol.name signature.result values).externals =
          middle.externals := by
          unfold State.invoke
          split <;> rfl
        unfold Adds at adds ⊢
        rw [same, adds]
        by_cases isOutput : callee.name = Semantics.outputName
        · simp [Expr.outputs, hidden isOutput, State.use, State.withTable]
        · simp [Expr.outputs, Expr.calls, isOutput, State.use, State.withTable]
      · have visible : env.hides = false := by
          have isOutput : callee.name = Semantics.outputName := isPrint
          rw [Env.hides, ← isOutput, ← sees.find?, State.meaning?, absent]
          rfl
        have isOutput : (callee.name == Semantics.outputName) = true := beq_iff_eq.mpr isPrint
        have declared : (middle.print format printed).externals ≠ [] := by
          have name : (middle.print format printed).externals =
              declareExternal middle.externals formatter := rfl
          rw [name, declareExternal]
          split
          · rename_i known
            rintro none_
            simp [none_] at known
          · simp
        refine iff_of_true declared (.inr ?_)
        simp [Expr.outputs, Expr.calls, visible, isOutput]

theorem lowerArguments_tells : ∀ (arguments : List Expr) {name : Bytes} {number : Nat}
    {types : List BasicType}, arguments.length = types.length →
    Tells (State.Sees (scene.inner context) env)
      (lowerArguments context name number types arguments)
      (!env.hides && Expr.callsAny Semantics.outputName arguments)
  | [], _, _, types, count => by
      obtain rfl := List.length_eq_zero_iff.mp count.symm
      rw [lowerArguments]
      · exact (Silent.pure []).tells.congr (by simp [Expr.callsAny])
      · exact fun _ _ _ _ absurd _ => by cases absurd
  | argument :: rest, name, number, [], count => by cases count
  | argument :: rest, name, number, wanted :: types, count => by
      intro state last found sees run
      obtain ⟨value, middle, values, valueRun, -, -, restRun, -⟩ := lowerArguments_cons_ok run
      obtain ⟨_, -, -, sees'⟩ := (lowerExpr_types argument).sound sees valueRun
      have one := lowerExpr_tells argument sees valueRun
      have other := lowerArguments_tells rest (Nat.succ.inj count) sees' restRun
      unfold Adds at one other ⊢
      rw [other, one]
      simp only [Expr.outputs, Expr.callsAny, Bool.and_eq_true, Bool.or_eq_true]
      rw [or_assoc, ← and_or_left]

end

end Expressions

/-! ### Statements -/

section Statements

variable {told : Bool}

theorem openScope_tells {kind : ScopeKind} {label : Bytes} {body : Context → Build α}
    (inner : ∀ new, Tells (State.Sees ((scene.inner context).inner new) ([] :: env))
      (body new) told) :
    Tells (State.Sees (scene.inner context) env) (openScope context kind label >>= body) told := by
  intro state last value sees run
  obtain ⟨new, middle, opened, run⟩ := bind_ok.mp run
  obtain ⟨rfl, rfl⟩ := Prod.mk.inj (openScope_ok.mp opened).2
  have adds := inner _ sees.openScope run
  exact adds

theorem inScope_tells {kind : ScopeKind} {label : Bytes} {body : Context → Build Unit}
    (inner : ∀ new, Tells (State.Sees ((scene.inner context).inner new) ([] :: env))
      (body new) told) :
    Tells (State.Sees (scene.inner context) env) (inScope context kind label body) told :=
  openScope_tells inner

/-- The declaration of a variable declares what its initial value does. -/
theorem lowerVariable_tells {declaration : VarDecl} :
    Tells (State.Sees (scene.inner context) env) (lowerVariable context declaration)
      (declaration.initial.any (Expr.outputs env.hides)) := by
  intro state last _ sees run
  obtain ⟨value, middle, symbol, table, begins, -, rfl⟩ := lowerVariable_ok run
  cases begins with
  | given initial lowered _ =>
      rw [initial]
      have adds := lowerExpr_tells _ sees lowered
      exact adds
  | @zero _ type initial _ _ _ _ =>
      rw [initial]
      have same : (state.addZero type).externals = state.externals := by cases type <;> rfl
      have adds : Adds state (state.addZero type) false := by simp [Adds, same]
      exact adds

theorem lowerCondition_tells {owner : Bytes} {expression : Expr} :
    Tells (State.Sees (scene.inner context) env) (lowerCondition context owner expression)
      (expression.outputs env.hides) := by
  intro state last value sees run
  exact lowerExpr_tells expression sees (lowerCondition_ok run).1

theorem lowerReturn_tells {first : Position} {value : Option Expr} :
    Tells (State.Sees (scene.inner context) env) (lowerReturn context first value)
      (value.any (Expr.outputs env.hides)) := by
  intro state last _ sees run
  rcases lowerReturn_ok run with
    ⟨rfl, -, rfl⟩ | ⟨expression, lowered, middle, rfl, valueRun, -, -, -, rfl⟩
  · have adds : Adds state state false := by simp [Adds]
    exact adds
  · have adds := lowerExpr_tells expression sees valueRun
    exact adds

theorem lowerWhen_tells {condition : Value} {consequent : Build Unit}
    (tells : Tells (State.Sees scene env) consequent told) :
    Tells (State.Sees scene env) (lowerWhen condition consequent) told :=
  (Quiet.newBlock _).then_tells (.newBlock _) fun _ =>
    (Quiet.newBlock _).then_tells (.newBlock _) fun _ =>
    (Quiet.branch _ _ _).then_tells (.branch _ _ _) fun _ =>
      (Quiet.enter _).then_tells (.enter _) fun _ =>
      tells.silently fun _ => (Silent.jumpIfOpen _).bind fun _ => Silent.enter _

theorem lowerChoice_tells {condition : Value} {consequent alternative : Build Unit} {test : Prop}
    {told' : Bool} (tests : Tests scene env consequent test)
    (tells : Tells (State.Sees scene env) consequent told)
    (other : Tells (State.Sees scene env) alternative told') :
    Tells (State.Sees scene env) (lowerChoice condition consequent alternative) (told || told') :=
  (Quiet.newBlock _).then_tells (.newBlock _) fun _ =>
    (Quiet.newBlock _).then_tells (.newBlock _) fun _ =>
    (Quiet.newBlock _).then_tells (.newBlock _) fun _ =>
      (Quiet.branch _ _ _).then_tells (.branch _ _ _) fun _ =>
        (Quiet.enter _).then_tells (.enter _) fun _ => tells.tests_bind tests fun _ =>
          (Quiet.jumpIfOpen _).then_tells (.jumpIfOpen _) fun _ =>
            (Quiet.enter _).then_tells (.enter _) fun _ =>
              other.silently fun _ => (Silent.jumpIfOpen _).bind fun _ => Silent.enter _

theorem lowerTest_tells {bodyBlock endBlock : BlockName} {condition : Option Expr} :
    Tells (State.Sees (scene.inner context) env) (lowerTest context bodyBlock endBlock condition)
      (condition.any (Expr.outputs env.hides)) := by
  cases condition with
  | none => exact (Silent.jump _).tells
  | some test => exact lowerCondition_tells.silently fun _ => .branch _ _ _

theorem lowerAdvance_tells {postBlock condBlock : BlockName} {advance : Option Expr} :
    Tells (State.Sees (scene.inner context) env) (lowerAdvance context postBlock condBlock advance)
      (advance.any (Expr.outputs env.hides)) := by
  cases advance with
  | none => exact (Silent.pure ()).tells
  | some expression =>
      exact (Quiet.enter _).then_tells (.enter _) fun _ =>
        (lowerExpr_tells expression).silently fun _ => .jump _

theorem lowerRounds_tells {condition advance : Option Expr} {body : LoopTargets → Build Unit}
    {test : Prop} (tests : ∀ targets, Tests (scene.inner context) env (body targets) test)
    (tells : ∀ targets, Tells (State.Sees (scene.inner context) env) (body targets) told) :
    Tells (State.Sees (scene.inner context) env) (lowerRounds context condition advance body)
      (condition.any (Expr.outputs env.hides) || told || advance.any (Expr.outputs env.hides)) := by
  have quiet : Quiet (advance.mapM fun _ => newBlock "loop.post") fun _ => True := by
    cases advance with
    | none => exact .pure trivial
    | some _ =>
        rw [Option.mapM_some, map_eq_pure_bind]
        exact (Quiet.newBlock _).bind fun _ _ => .pure trivial
  have silent : Silent (advance.mapM fun _ => newBlock "loop.post") := by
    cases advance with
    | none => exact .pure _
    | some _ =>
        rw [Option.mapM_some, map_eq_pure_bind]
        exact (Silent.newBlock _).bind fun _ => .pure _
  refine Tells.congr ((Quiet.newBlock _).then_tells (.newBlock _) fun condBlock =>
    (Quiet.newBlock _).then_tells (.newBlock _) fun bodyBlock =>
      quiet.then_tells silent fun postBlock =>
    (Quiet.newBlock _).then_tells (.newBlock _) fun endBlock =>
    (Quiet.jump _).then_tells (.jump _) fun _ => (Quiet.enter _).then_tells (.enter _) fun _ =>
    lowerTest_tells.tests_bind lowerTest_tests fun _ =>
      (Quiet.enter _).then_tells (.enter _) fun _ =>
    (tells _).tests_bind (tests _) fun _ => (Quiet.jumpIfOpen _).then_tells (.jumpIfOpen _) fun _ =>
    lowerAdvance_tells.silently fun _ => .enter _) (Bool.or_assoc ..).symm

theorem contains_singleton (name other : Bytes) : [name].contains other = (name == other) := by
  simp [Bool.beq_eq_decide_eq, eq_comm]

theorem contains_map (list : List α) (name : α → Bytes) (other : Bytes) :
    (list.map name).contains other = list.any fun item => name item == other := by
  rw [Bool.eq_iff_iff]
  simp

/-- What a statement declares in its scope hides the output function or not. -/
theorem hides_of_admits {result : BasicType} :
    ∀ {inLoop : Bool} {own last : Scope} {statement : Stmt},
    Admits result inLoop outer own statement last →
      Env.hides (last :: outer) = (Env.hides (own :: outer) || statement.hides)
  | _, own, _, _, @Admits.variable _ _ _ _ declaration type _ _ => by
      have names : Scope.names (own ++ [(declaration.name.name, Denoted.variable type)]) =
          own.names ++ [declaration.name.name] := List.map_append
      simp only [hides_cons, names, Stmt.hides, VarDecl.hides, List.contains_append,
        contains_singleton]
      rw [Bool.or_right_comm]
  | _, _, _, _, .choice _ _ other => by
      rw [hides_of_admits other, Stmt.hides]
  | _, _, _, _, .expression _ | _, _, _, _, .block _ | _, _, _, _, .when _ _
  | _, _, _, _, .loop _ _ _ _ | _, _, _, _, .leave _ | _, _, _, _, .return_ _ _
  | _, _, _, _, .break_ | _, _, _, _, .continue_ => by simp [Stmt.hides]

/-- What a loop declares in its scope hides the output function or not. -/
theorem hides_of_starts {start : Option LoopStart} {header : Scope}
    (starts : Starts outer start header) :
    Env.hides (header :: outer) = (outer.hides || start.any LoopStart.hides) := by
  rcases starts with _ | _ | _
  · simp [hides_cons, Scope.names]
  · simp only [hides_cons, Scope.names, List.map_singleton, contains_singleton, Option.any_some,
      LoopStart.hides, VarDecl.hides]
    rw [Bool.or_comm]
  · simp [hides_cons, Scope.names, LoopStart.hides]

theorem lowerStart_tells {start : Option LoopStart} :
    Tells (State.Sees (scene.inner context) env) (start.forM (lowerStart context))
      (start.any (LoopStart.outputs env.hides)) := by
  rcases start with _ | ⟨declaration | statement⟩
  · exact (Silent.pure ()).tells
  · exact lowerVariable_tells
  · exact (lowerExpr_tells statement.expression).silently fun _ => .pure ()

/-- Lowering declares the external function in any scene exactly if a statement calls the output
function, also behind `else`. -/
structure Reports (statement : Stmt) : Prop where
  /-- The statement as one of a list. -/
  alone : ∀ (scene : Scene) (context : Context) (outer : Env) (own : Scope)
    (loop : Option LoopTargets), Tells (State.Sees (scene.inner context) (own :: outer))
      (lowerStmt context loop statement) (statement.outputs (Env.hides (own :: outer)))
  /-- The statement as an alternative. -/
  alternative : ∀ (scene : Scene) (context : Context) (outer : Env) (own : Scope)
    (loop : Option LoopTargets), Tells (State.Sees (scene.inner context) (own :: outer))
      (lowerAlternative context loop statement) (statement.outputs (Env.hides (own :: outer)))

/-- Lowering declares the external function in any scene exactly if one of several statements calls
the output function. -/
def ReportsAll (statements : List Stmt) : Prop :=
  ∀ (scene : Scene) (context : Context) (outer : Env) (own : Scope) (loop : Option LoopTargets),
    Tells (State.Sees (scene.inner context) (own :: outer)) (lowerStmts context loop statements)
      (Stmt.outputsAny (Env.hides (own :: outer)) statements)

theorem ReportsAll.inScope {statements : List Stmt} (reports : ReportsAll statements)
    {kind : ScopeKind} {label : Bytes} {loop : Option LoopTargets} :
    Tells (State.Sees (scene.inner context) env)
      (Lowering.inScope context kind label fun inner => lowerStmts inner loop statements)
      (Stmt.outputsAny env.hides statements) := by
  refine inScope_tells fun new => (reports (scene.inner context) new env [] loop).congr ?_
  simp [hides_cons, Scope.names]

theorem Reports.of_alone {statement : Stmt}
    (same : ∀ context loop, lowerAlternative context loop statement =
      lowerStmt context loop statement)
    (alone : ∀ (scene : Scene) (context : Context) (outer : Env) (own : Scope)
      (loop : Option LoopTargets), Tells (State.Sees (scene.inner context) (own :: outer))
        (lowerStmt context loop statement) (statement.outputs (Env.hides (own :: outer)))) :
    Reports statement where
  alone := alone
  alternative :=
    fun scene context outer own loop => same context loop ▸ alone scene context outer own loop

theorem reports_block {opening closing : Token} {body : List Stmt} (reports : ReportsAll body) :
    Reports (.block opening body closing) where
  alone := by
    intro scene context outer own loop
    rw [lowerStmt]
    exact (Quiet.openBlock.then_tells .openBlock fun _ => reports.inScope).congr
      (by rw [Stmt.outputs])
  alternative := fun scene context outer own loop => reports.inScope.congr (by rw [Stmt.outputs])

theorem reports_when {first : Position} {condition : Expr} {opening closing : Token}
    {consequent : List Stmt} (reports : ReportsAll consequent) :
    Reports (.conditional first condition opening consequent closing none) := by
  refine .of_alone (fun _ _ => rfl) fun scene context outer own loop => ?_
  rw [lowerStmt]
  exact (Quiet.openBlock.then_tells .openBlock fun _ =>
    lowerCondition_tells.types_bind lowerCondition_types fun _ =>
      lowerWhen_tells reports.inScope).congr (by rw [Stmt.outputs])

theorem reports_choice {first : Position} {condition : Expr} {opening closing : Token}
    {consequent : List Stmt} {alternative : Stmt} (reports : ReportsAll consequent)
    (other : Reports alternative) :
    Reports (.conditional first condition opening consequent closing (some alternative)) := by
  refine .of_alone (fun _ _ => rfl) fun scene context outer own loop => ?_
  rw [lowerStmt_choice]
  exact (Quiet.openBlock.then_tells .openBlock fun _ =>
    lowerCondition_tells.types_bind lowerCondition_types fun _ =>
      lowerChoice_tells (lowerStmts_checks consequent).inScope reports.inScope
        (other.alternative ..)).congr (by rw [Stmt.outputs, Bool.or_assoc])

theorem reports_loop {keyword : Token} {start : Option LoopStart} {condition advance : Option Expr}
    {opening closing : Token} {body : List Stmt} (reports : ReportsAll body) :
    Reports (.loop keyword start condition advance opening body closing) := by
  refine .of_alone (fun _ _ => rfl) fun scene context outer own loop => ?_
  have rounds : ∀ scope header, Starts (own :: outer) start header →
      Tells (State.Sees ((scene.inner context).inner scope) (header :: own :: outer))
        (lowerRounds scope condition advance fun targets =>
          inScope scope .block "loop.body" fun inner => lowerStmts inner (some targets) body)
        (condition.any (Expr.outputs (Env.hides (own :: outer) || start.any LoopStart.hides)) ||
          Stmt.outputsAny (Env.hides (own :: outer) || start.any LoopStart.hides) body ||
          advance.any (Expr.outputs (Env.hides (own :: outer) || start.any LoopStart.hides))) := by
    intro scope header starts
    have inner : ∀ targets : LoopTargets,
        Tests ((scene.inner context).inner scope) (header :: own :: outer)
          (inScope scope .block "loop.body" fun inner => lowerStmts inner (some targets) body)
          (∃ inner, AdmitsAll scene.result true (header :: own :: outer) [] body inner) :=
      fun _ => (lowerStmts_checks body).inScope
    rw [← hides_of_starts starts]
    exact lowerRounds_tells inner fun targets => reports.inScope
  have whole :
    ∀ scope, Tells (State.Sees ((scene.inner context).inner scope) ([] :: own :: outer)) (do
      start.forM (lowerStart scope)
      lowerRounds scope condition advance fun targets =>
        inScope scope .block "loop.body" fun inner => lowerStmts inner (some targets) body) _ :=
    fun scope => lowerStart_tells.extends_bind lowerStart_extends fun header starts _ =>
      rounds scope header starts
  rw [lowerStmt]
  refine (Quiet.openBlock.then_tells .openBlock fun _ => inScope_tells whole).congr ?_
  rw [hides_cons, Stmt.outputs]
  simp [Scope.names, Bool.or_assoc]

mutual

/-- **Lowering a statement declares the external function exactly if it calls the output
function.** -/
theorem lowerStmt_reports : ∀ statement : Stmt, Reports statement
  | .expression statement => by
      refine .of_alone (fun _ _ => rfl) fun scene context outer own loop => ?_
      rw [lowerStmt]
      exact (Quiet.openBlock.then_tells .openBlock fun _ =>
        (lowerExpr_tells statement.expression).silently fun _ => .pure ()).congr
          (by rw [Stmt.outputs])
  | .variable declaration => by
      refine .of_alone (fun _ _ => rfl) fun scene context outer own loop => ?_
      rw [lowerStmt]
      exact (Quiet.openBlock.then_tells .openBlock fun _ => lowerVariable_tells).congr
        (by rw [Stmt.outputs])
  | .block _ body _ => reports_block (lowerStmts_reports body)
  | .conditional _ _ _ consequent _ none => reports_when (lowerStmts_reports consequent)
  | .conditional _ _ _ consequent _ (some alternative) =>
      reports_choice (lowerStmts_reports consequent) (lowerStmt_reports alternative)
  | .loop _ _ _ _ _ body _ => reports_loop (lowerStmts_reports body)
  | .return_ first value semicolon => by
      refine .of_alone (fun _ _ => rfl) fun scene context outer own loop => ?_
      rw [lowerStmt]
      exact (Quiet.openBlock.then_tells .openBlock fun _ => lowerReturn_tells).congr
        (by rw [Stmt.outputs])
  | .break_ keyword => by
      refine .of_alone (fun _ _ => rfl) fun scene context outer own loop => ?_
      have silent : Silent (lowerStmt context loop (.break_ keyword)) := by
        cases loop with
        | none =>
            rw [lowerStmt]
            exact Silent.openBlock.bind fun _ => .refuse
        | some targets =>
            rw [lowerStmt]
            exact Silent.openBlock.bind fun _ => .jump _
      exact silent.tells.congr (by rw [Stmt.outputs])
  | .continue_ keyword => by
      refine .of_alone (fun _ _ => rfl) fun scene context outer own loop => ?_
      have silent : Silent (lowerStmt context loop (.continue_ keyword)) := by
        cases loop with
        | none =>
            rw [lowerStmt]
            exact Silent.openBlock.bind fun _ => .refuse
        | some targets =>
            rw [lowerStmt]
            exact Silent.openBlock.bind fun _ => .jump _
      exact silent.tells.congr (by rw [Stmt.outputs])
  | .function first => by
      refine .of_alone (fun _ _ => rfl) fun scene context outer own loop => ?_
      rw [lowerStmt]
      exact (Silent.openBlock.bind fun _ => .refuse).tells.congr (by rw [Stmt.outputs])

/-- **Lowering statements declares the external function exactly if one of them calls the output
function.** -/
theorem lowerStmts_reports : ∀ statements : List Stmt, ReportsAll statements
  | [] => by
      intro scene context outer own loop
      rw [lowerStmts]
      exact (Silent.pure ()).tells.congr (by rw [Stmt.outputsAny])
  | statement :: rest => by
      intro scene context outer own loop
      rw [lowerStmts]
      exact (((lowerStmt_reports statement).alone scene context outer own loop).extends_bind
        ((lowerStmt_checks statement).alone scene context outer own loop) fun middle admits _ =>
          (lowerStmts_reports rest scene context outer middle loop).congr
            (by rw [hides_of_admits admits])).congr (by rw [Stmt.outputsAny])

end

end Statements

/-! ### Functions -/

section Functions

variable {contexts idle : List Context} {parent : Context} {declaration : FunctionDecl}
    {told : Bool}

theorem hides_of_admitsAll {result : BasicType} {inLoop : Bool} {last : Scope}
    {statements : List Stmt} (admits : AdmitsAll result inLoop outer own statements last) :
    Env.hides (last :: outer) = (Env.hides (own :: outer) || statements.any Stmt.hides) := by
  induction statements generalizing own with
  | nil =>
      obtain rfl := admitsAll_nil_iff.mp admits
      simp
  | cons statement rest ih =>
      obtain ⟨middle, first, others⟩ := admitsAll_cons_iff.mp admits
      rw [ih others, hides_of_admits first, List.any_cons, Bool.or_assoc]

theorem hides_paramScope (declaration : FunctionDecl) (env : Env) :
    Env.hides (paramScope declaration :: env) =
      (env.hides || declaration.params.any fun param => param.name.name ==
        Semantics.outputName) := by
  have names : (paramScope declaration).names = declaration.params.map fun param =>
    param.name.name := by
    rw [Scope.names, paramScope, List.map_map]
    rfl
  rw [hides_cons, names, Bool.or_comm, contains_map]

theorem Silent.spillParams {params : List (Param × Place)} :
    Silent (Lowering.spillParams context params) := by
  induction params with
  | nil => exact .pure ()
  | cons entry rest ih =>
      exact Silent.onTable.bind fun _ => Silent.holdValue.bind fun _ => ih

theorem beginFunction_tells {function : Function} {next : Build γ}
    (tells : Tells (State.Sees ⟨contexts, idle, function.result⟩ env) next told) :
    Tells (State.Rests contexts idle env) (beginFunction function >>= fun _ => next) told := by
  intro state last value rests run
  obtain ⟨_, middle, begun, run⟩ := bind_ok.mp run
  obtain ⟨-, rfl⟩ := Prod.mk.inj (beginFunction_ok.mp begun)
  have adds := tells (rests.begin function) run
  exact adds

/-- Lowering a function declares the external function exactly if it or its prologue calls the
output function. -/
theorem lowerFunction_tells (annotated : Annotated declaration) {prologue : List Stmt} :
    Tells (State.Rests (parent :: contexts) idle (own :: outer))
      (lowerFunction parent prologue (headOf declaration))
      (Stmt.outputsAny (Env.hides (own :: outer)) prologue ||
        declaration.outputs (Env.hides (own :: outer) || prologue.any Stmt.hides)) := by
  have inner : ∀ (top : Scope) (scope : Context),
      Tells (State.Sees ⟨scope :: parent :: contexts, idle, (signature declaration).result⟩
        ([] :: top :: outer)) (do
        spillParams scope (declaration.params.zip (headOf declaration).function.params)
        lowerStmts scope none declaration.body
        finishFunction) (declaration.outputs (Env.hides (top :: outer))) := by
    intro top scope
    have body : Tells
      (State.Sees ⟨scope :: parent :: contexts, idle, (signature declaration).result⟩
        (paramScope declaration :: top :: outer)) (do
        lowerStmts scope none declaration.body
        finishFunction) (declaration.outputs (Env.hides (top :: outer))) := by
      rw [FunctionDecl.outputs, ← hides_paramScope]
      exact (lowerStmts_reports declaration.body ⟨parent :: contexts, idle, _⟩ scope (top :: outer)
        (paramScope declaration) none).silently fun _ => .finishFunction
    refine (Silent.spillParams.tells.extends_bind
      (@spillHead_extends (top :: outer) scope _ annotated
      ⟨parent :: contexts, idle, _⟩) fun spilled begins _ => ?_).congr (Bool.false_or _)
    obtain ⟨-, rfl⟩ := begins
    exact body
  refine beginFunction_tells ((lowerStmts_reports prologue ⟨contexts, idle, _⟩ parent outer own
    none).extends_bind (lowerStmts_checks prologue ⟨contexts, idle, _⟩ parent outer own none)
    fun top admits _ => ?_)
  rw [← hides_of_admitsAll admits]
  exact @openScope_tells _ ⟨contexts, idle, _⟩ _ _ _ _ _ _ (inner top)

theorem lowerTopLevel_tells {name : Bytes} {statements : List Stmt} :
    Tells (State.Rests (context :: contexts) idle (own :: outer))
      (lowerTopLevel context name statements)
        (Stmt.outputsAny (Env.hides (own :: outer)) statements) :=
  beginFunction_tells ((lowerStmts_reports statements ⟨contexts, idle, .int⟩ context outer own
    none).silently fun _ => .finishFunction)

end Functions

/-! ### Programs -/

section Programs

variable {idle : List Context} {declaration : FunctionDecl}

/-- What is told of each item of a list is told of one of them. -/
theorem mapM_tells {view : State → Prop} {step : α → Build β} {rule : α → Prop} {told : α → Bool}
    {items : List α}
    (each : ∀ item ∈ items, Decides view (step item) (fun _ : Unit => rule item) fun _ _ last =>
      view last)
    (tells : ∀ item ∈ items, Tells view (step item) (told item)) :
    Tells view (items.mapM step) (items.any told) := by
  induction items with
  | nil =>
      rw [List.mapM_nil]
      exact (Silent.pure []).tells
  | cons item items ih =>
      obtain ⟨first, others⟩ := List.forall_mem_cons.mp each
      obtain ⟨firstTells, otherTells⟩ := List.forall_mem_cons.mp tells
      rw [List.mapM_cons]
      exact firstTells.bind
        (fun _ _ _ starts run => (first.sound starts run).elim fun _ shows => shows.2)
        fun found => (ih others otherTells).silently fun rest => .pure _

/-- The bodies of functions that are not the entry function. -/
theorem lowerBodies_tells {declarations : List FunctionDecl} {step : Declared → Build Function}
    (annotated : ∀ declaration ∈ declarations, Annotated declaration)
    (plain : ∀ declaration ∈ declarations,
      step (headOf declaration) = lowerFunction ScopeTable.root [] (headOf declaration)) :
    Tells (State.Rests [ScopeTable.root] idle [own]) ((declarations.map headOf).mapM step)
      (declarations.any (FunctionDecl.outputs (Env.hides [own]))) := by
  have decides :
    ∀ item ∈ declarations.map headOf, Decides (State.Rests [ScopeTable.root] idle [own])
      (step item) (fun _ : Unit => AdmitsFunction [own] item.declaration)
      fun _ _ last => last.Rests [ScopeTable.root] idle [own] := by
    intro item member
    obtain ⟨declaration, there, rfl⟩ := List.mem_map.mp member
    rw [plain declaration there]
    exact lowerPlain_decides (annotated declaration there)
  have tells : ∀ item ∈ declarations.map headOf, Tells (State.Rests [ScopeTable.root] idle [own])
      (step item) (item.declaration.outputs (Env.hides [own])) := by
    intro item member
    obtain ⟨declaration, there, rfl⟩ := List.mem_map.mp member
    rw [plain declaration there]
    exact (lowerFunction_tells (annotated declaration there)).congr
      (by simp [Stmt.outputsAny, headOf])
  exact (mapM_tells decides tells).congr (by rw [List.any_map]; rfl)

/-- The functions of a program one of which takes the statements at top level. -/
theorem lowerWithEntry_tells {front back : List FunctionDecl} {step : Declared → Build Function}
    {statements : List Stmt}
    (annotated : ∀ other ∈ front ++ declaration :: back, Annotated other)
    (plain : ∀ other ∈ front ++ back,
      step (headOf other) = lowerFunction ScopeTable.root [] (headOf other))
    (takes : step (headOf declaration) = lowerFunction context statements (headOf declaration)) :
    Tells (State.Rests [ScopeTable.root] [context] [own])
      (((front ++ declaration :: back).map headOf).mapM step)
      (front.any (FunctionDecl.outputs (Env.hides [own])) ||
        (Stmt.outputsAny (Env.hides [own]) statements ||
          declaration.outputs (Env.hides [own] || statements.any Stmt.hides) ||
          back.any (FunctionDecl.outputs (Env.hides [own])))) := by
  simp only [List.forall_mem_append, List.forall_mem_cons] at annotated plain
  obtain ⟨ofFront, ofEntry, ofBack⟩ := annotated
  rw [List.map_append, List.map_cons, List.mapM_append, List.mapM_cons, takes]
  have hides : Env.hides [[], own] = Env.hides [own] := by simp [hides_cons, Scope.names]
  have entry : Tells (State.Rests [ScopeTable.root] [context] [own])
      (lowerFunction context statements (headOf declaration)) _ :=
    fun _ _ _ rests run => hides ▸ lowerFunction_tells ofEntry rests.enter run
  have leads : ∀ ⦃state last : State⦄ ⦃value :
    Function⦄, state.Rests [ScopeTable.root] [context] [own] →
      lowerFunction context statements (headOf declaration) state = .ok (value, last) →
        last.Rests [ScopeTable.root] [] [own] := fun _ _ _ rests run =>
    ((lowerFunction_decides ofEntry).sound rests.enter run).elim fun _ shows => shows.2.leave
  exact (lowerBodies_tells ofFront plain.1).bind
    (fun _ _ _ rests run => ((lowerBodies_decides ofFront plain.1).sound rests run).elim
      fun _ shows => shows.2)
    fun bodies => (entry.bind leads fun body => (lowerBodies_tells ofBack plain.2).silently
      fun others => .pure _).silently fun rest => .pure _

variable {options : EntryOptions} {stem : Bytes} {program : Program}

/-- The functions of a program none of which takes the statements at top level. -/
theorem lowerSynthesized_tells {topLevel : Context} {name : Bytes}
    (annotated : ∀ other ∈ program.functions, Annotated other) :
    Tells (State.Rests [ScopeTable.root] [topLevel] [own])
      (match program.functions.find? fun declaration => declaration.name.name == name with
        | some declaration => refuse ScopeTable.root declaration.name.first (.reservedName name)
        | none => do
            let entry ← lowerTopLevel topLevel name program.statements
            let functions ← (program.functions.map headOf).mapM (lowerFunction ScopeTable.root [])
            return (name, entry :: functions))
      (Stmt.outputsAny (Env.hides [own]) program.statements ||
        program.functions.any (FunctionDecl.outputs (Env.hides [own]))) := by
  cases program.functions.find? fun declaration => declaration.name.name == name with
  | some declaration => exact fun _ _ _ _ run => absurd run refuse_ok
  | none =>
      have hides : Env.hides [[], own] = Env.hides [own] := by simp [hides_cons, Scope.names]
      have entry : Tells (State.Rests [ScopeTable.root] [topLevel] [own])
          (lowerTopLevel topLevel name program.statements) _ :=
        fun _ _ _ rests run => hides ▸ lowerTopLevel_tells rests.enter run
      have leads : ∀ ⦃state last : State⦄ ⦃value : Function⦄,
          state.Rests [ScopeTable.root] [topLevel] [own] →
          lowerTopLevel topLevel name program.statements state = .ok (value, last) →
            last.Rests [ScopeTable.root] [] [own] := fun _ _ _ rests run =>
        (lowerTopLevel_decides.sound rests.enter run).elim fun _ shows => shows.2.leave
      exact entry.bind leads fun first =>
        (lowerBodies_tells annotated fun _ _ => rfl).silently fun functions => .pure _

theorem hides_globals (program : Program) : Env.hides [globals program] =
    program.functions.any fun declaration => declaration.name.name == Semantics.outputName := by
  have names : (globals program).names = program.functions.map fun declaration =>
    declaration.name.name := by
    rw [Scope.names, globals, List.map_map]
    rfl
  have none : Env.hides [] = false := rfl
  rw [hides_cons, names, none, Bool.or_false, contains_map]

theorem Silent.declareFunctions {declarations : List FunctionDecl} :
    Silent (declarations.mapM declareFunction) := by
  induction declarations with
  | nil =>
      rw [List.mapM_nil]
      exact .pure []
  | cons declaration rest ih =>
      have first : Silent (declareFunction declaration) := by
        intro state last _ run
        obtain ⟨_, _, _, _, -, -, -, rfl⟩ := declareFunction_ok run
        rfl
      rw [List.mapM_cons]
      exact first.bind fun _ => ih.bind fun _ => .pure _

theorem isEntry_iff : isEntry options declaration = true ↔ IsEntry options declaration := by
  simp [isEntry, IsEntry]

/-- The variables at top level are in sight of the entry function alone. -/
theorem any_outputs_of_plain {declarations : List FunctionDecl}
    (plain : ∀ other ∈ declarations, ¬ IsEntry options other) (hidden top : Bool) :
    (declarations.any fun declaration =>
      declaration.outputs (hidden || (isEntry options declaration && top))) =
      declarations.any (FunctionDecl.outputs hidden) := by
  rw [Bool.eq_iff_iff, List.any_eq_true, List.any_eq_true]
  refine exists_congr fun declaration => and_congr_right fun member => ?_
  rw [Bool.eq_false_iff.mpr fun entry => plain declaration member (isEntry_iff.mp entry),
    Bool.false_and,
    Bool.or_false]

/-- Lowering the items of a program declares the external function exactly if it calls the output
function. -/
theorem lowerItems_tells {result : BasicType} :
    Tells (State.Sees ⟨[ScopeTable.root], [], result⟩ [[]]) (lowerItems options stem program)
      (program.outputs options) := by
  intro state last value sees run
  have names : ([] : Scope) ++ program.functions.map (fun declaration =>
      (declaration.name.name, Denoted.function (signature declaration))) = globals program :=
    List.nil_append _
  obtain ⟨declared, middle, declaring, run⟩ := bind_ok.mp run
  have silent := Silent.declareFunctions declaring
  obtain ⟨-, ⟨annotated, distinct, -⟩, rfl, sees⟩ := declareFunctions_decides.sound sees declaring
  rw [names] at sees
  obtain ⟨topLevel, opened, opening, run⟩ := bind_ok.mp run
  obtain ⟨rfl, rfl⟩ := Prod.mk.inj (openScope_ok.mp opening).2
  have rests : (middle.openScope ScopeTable.root .topLevel "<toplevel>").Rests [ScopeTable.root]
      [middle.nextContext] [globals program] :=
    ⟨result, (@State.Sees.openScope ⟨[], [], result⟩ _ _ _ sees _ _).standAside⟩
  have told : Adds (middle.openScope ScopeTable.root .topLevel "<toplevel>") last
      (program.outputs options) := by
    rw [Program.outputs, ← hides_globals]
    by_cases present : ∃ declaration ∈ program.functions, IsEntry options declaration
    · obtain ⟨declaration, member, isEntry⟩ := present
      obtain ⟨front, back, listed⟩ := List.append_of_mem member
      have others := not_isEntry_of_distinct listed distinct isEntry
      have whole :
        Tells (State.Rests [ScopeTable.root] [middle.nextContext] [globals program]) _ _ :=
        @lowerWithEntry_tells _ _ _ front back (fun item =>
          if options.policy == .auto && item.declaration.name.name == options.entryName then
            lowerFunction middle.nextContext program.statements item
          else lowerFunction ScopeTable.root [] item) program.statements (listed ▸ annotated)
          (fun other there => if_neg fun holds => others other there (isEntry_iff.mp holds))
          (if_pos (isEntry_iff.mpr isEntry))
      rw [← listed] at whole
      rw [if_pos (List.any_eq_true.mpr ⟨headOf declaration, List.mem_map_of_mem member,
        isEntry_iff.mpr isEntry⟩)] at run
      have adds :=
        (whole.silently fun functions => Silent.pure (options.entryName, functions)) rests run
      have ofFront :=
        any_outputs_of_plain (fun other there => others other (List.mem_append_left _ there))
        (Env.hides [globals program]) (program.statements.any Stmt.hides)
      have ofBack :=
        any_outputs_of_plain (fun other there => others other (List.mem_append_right _ there))
        (Env.hides [globals program]) (program.statements.any Stmt.hides)
      convert adds using 1
      rw [listed, List.any_append, List.any_cons, ofFront, ofBack, isEntry_iff.mpr isEntry,
        Bool.true_and]
      ac_rfl
    · have none : ∀ other ∈ program.functions, ¬ IsEntry options other :=
        fun other member isEntry => present ⟨other, member, isEntry⟩
      have absent : ¬ (program.functions.map headOf).any (fun item =>
          options.policy == .auto && item.declaration.name.name == options.entryName) = true := by
        intro found
        obtain ⟨item, member, holds⟩ := List.any_eq_true.mp found
        obtain ⟨other, there, rfl⟩ := List.mem_map.mp member
        exact none other there (isEntry_iff.mp holds)
      rw [if_neg absent] at run
      rw [any_outputs_of_plain none]
      exact lowerSynthesized_tells annotated rests run
  unfold Adds at told ⊢
  rw [told, ← silent]
  rfl

/-- **An external function is declared exactly if the program calls the output function.** -/
theorem externals_ne_nil_iff {file : SourceFile} {built : Built}
    (run : build options file program = .ok built) :
    built.module.externals ≠ [] ↔ program.outputs options = true := by
  have starts : State.Sees ⟨[ScopeTable.root], [], _⟩ [[]]
      { table := .ofFile file, function := .ofSignature [] [] .void,
        current := ⟨Function.entry, []⟩ } :=
    sees_ofFile rfl
  unfold build at run
  simp only [StateT.run, bind, Except.bind] at run
  split at run
  · cases run
  · rename_i outcome lowered
    cases run
    have adds := lowerItems_tells starts lowered
    rw [Adds] at adds
    simpa using adds

end Programs

end Lowering

end ScriptCompiler
