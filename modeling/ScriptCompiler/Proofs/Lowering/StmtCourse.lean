import ScriptCompiler.Proofs.Lowering.ExprCourse

/-!
# The course of lowering statements

Lowering a statement is a course, too.  Only a declaration changes the meaning of a name in the
context of the statement, and whether the course ends in an open block can be read off the
statement: a return, a break and a continue close their block, and so does a block that ends in one
of them.
-/

namespace ScriptCompiler

mutual

/-- Whether nothing can be put directly behind the code of a statement. -/
def Stmt.closes : Stmt → Bool
  | .return_ .. | .break_ _ | .continue_ _ => true
  | .block _ body _ => Stmt.closesAll body
  | _ => false

/-- Whether nothing can be put directly behind the code of statements. -/
def Stmt.closesAll : List Stmt → Bool
  | [] => false
  | [statement] => statement.closes
  | _ :: rest => Stmt.closesAll rest

end

/-- Whether a statement declares a variable in its own context. -/
def Stmt.declares : Stmt → Bool
  | .variable _ => true
  | _ => false

namespace Lowering

open IR Build

variable {signature? : Bytes → Option Signature} {context : Nat} {base before middle after : Draft}
  {last : State} {value : Value}

/-- The draft in which the current block takes instructions. -/
def Draft.opened (draft : Draft) : Draft :=
  if draft.state.isOpen then draft
  else ⟨draft.state.opened, (draft.addBlock "dead").known⟩

theorem Draft.opened_state (draft : Draft) : draft.opened.state = draft.state.opened := by
  unfold Draft.opened
  split
  · rename_i isOpen
    simp [State.opened, isOpen]
  · rfl

/-- Behind a block that has ended, a course goes on in a new one. -/
theorem Course.opened (ready : before.Ready signature? context) :
    Course signature? context before before.opened ∧ before.opened.state.isOpen = true ∧
      before.opened.state.meaning? = before.state.meaning? := by
  unfold Draft.opened
  split
  · rename_i isOpen
    exact ⟨.refl ready, isOpen, rfl⟩
  · rename_i closed
    have listed : ("dead" : Bytes) ∈ blockLabels := by decide
    have made := (Prepares.refl ready).block listed
    have fresh := (Prepares.refl ready).fresh "dead"
    simp only [State.opened, closed]
    exact ⟨made.course.enter fresh ready (congrFun made.meanings context),
      fresh.isOpen made.course.ready.sound, made.meanings⟩

section Declarations

variable {symbol owned : Symbol}

/-- A name that stands for another slot than before. -/
def State.Rebinds (before after : State) (context : Nat) (name : Bytes) (place : Place) : Prop :=
  ∀ other, after.meaning? context other =
    if other = name then some (.variable place) else before.meaning? context other

/-- The slot of a new variable. -/
def State.newPlace (state : State) (symbol : Symbol) (type : BasicType) : Place :=
  ⟨state.nextId, symbol.name, type⟩

section Hold

variable {table : ScopeTable} (ready : before.Ready signature? context)
  (usable : before.Usable signature? value) (assignable : symbol.isAssignable = true)
  (plain : ∃ type, symbol.type = some (.basic type))
  (declares : before.state.table.declare context symbol = .ok (owned, table))
include declares

theorem State.hold_eq (value : Value) :
    (before.state.withTable table).hold owned value.type value =
      ((before.state.keep (before.state.newPlace symbol value.type) value).withTable table).bindSlot
        owned (before.state.newPlace symbol value.type) := by
  have named : owned.name = symbol.name := by rw [(ScopeTable.declare_ok declares).2.1]
  simp only [State.hold, named]
  rfl

include ready assignable plain in
theorem Draft.Ready.declaration (value : Value) :
    Declares before.state ((before.state.withTable table).hold owned value.type value)
      context symbol
        owned ∧
      before.state.Rebinds ((before.state.withTable table).hold owned value.type value) context
        symbol.name (before.state.newPlace symbol value.type) := by
  rw [State.hold_eq declares value]
  generalize held : ((before.state.keep (before.state.newPlace symbol value.type) value).withTable
    table).bindSlot owned (before.state.newPlace symbol value.type) = after
  have tables : after.table = table := by rw [← held, State.bindSlot, State.withTable]
  have slots : after.slots =
      ((owned.context, owned.index), before.state.newPlace symbol value.type) ::
        before.state.slots := by
    rw [← held]
    rfl
  obtain ⟨declared, meaning⟩ :=
    Declares.of_slot ready.inside assignable plain (tables ▸ declares) slots
  refine ⟨declared, fun other => ?_⟩
  rw [declared.meaning?_self ready.wellScoped, meaning]

include ready usable assignable plain

/-- A variable is declared and holds a value, in an open block if moves are to be tidy. -/
theorem Draft.Ready.hold {tidy : Prop} (takes : tidy → before.state.isOpen = true) :
    Moves signature? tidy before
        ⟨(before.state.withTable table).hold owned value.type value, before.known⟩ ∧
      Draft.Ready signature?
        ⟨(before.state.withTable table).hold owned value.type value, before.known⟩ context ∧
      ((before.state.withTable table).hold owned value.type value).isOpen = true ∧
      before.held ⊆
        Draft.held ⟨(before.state.withTable table).hold owned value.type value, before.known⟩ := by
  obtain ⟨declared, rebinds⟩ := ready.declaration assignable plain declares value
  obtain ⟨moves, opened, filled, held⟩ :=
    ready.sound.keep takes (before.state.newPlace symbol value.type) rfl usable rfl
  rw [State.hold_eq declares value] at declared rebinds ⊢
  have note : Move signature? tidy
      ⟨before.state.keep (before.state.newPlace symbol value.type) value, before.known⟩
      ⟨((before.state.keep (before.state.newPlace symbol value.type) value).withTable
        table).bindSlot owned (before.state.newPlace symbol value.type), before.known⟩ :=
    .note _ (Nat.le_refl _) rfl rfl List.prefix_rfl (.inl rfl)
  have all : Moves signature? tidy before _ := Relation.ReflTransGen.tail moves note
  refine ⟨all, ⟨ready.sound.moves all, declared.wellScoped ready.wellScoped, ?_, ?_, ?_⟩, opened,
    held⟩
  · exact Nat.lt_of_lt_of_eq ready.inside declared.nextContext_eq.symm
  · intro name place means
    rw [rebinds] at means
    split at means
    · obtain rfl : before.state.newPlace symbol value.type = place := by simpa using means
      exact ⟨filled.isResult, filled.isValue, filled.slot, filled.content⟩
    · exact (ready.filled name place means).mono
        (fun _ => all.grows.results_subset ready.sound.numbered) held
  · intro name signature means
    rw [rebinds] at means
    split at means
    · simp at means
    · exact ready.callable name signature means

/-- A course is continued by a variable that is declared and holds a value. -/
theorem Course.hold (takes : before.state.isOpen = true) :
    Course signature? context before
        ⟨(before.state.withTable table).hold owned value.type value, before.known⟩ ∧
      ((before.state.withTable table).hold owned value.type value).isOpen = true ∧
      before.state.Rebinds ((before.state.withTable table).hold owned value.type value) context
        symbol.name (before.state.newPlace symbol value.type) := by
  obtain ⟨declared, rebinds⟩ := ready.declaration assignable plain declares value
  obtain ⟨moves, ready', opened, held⟩ :=
    ready.hold usable assignable plain declares fun _ : True => takes
  refine ⟨?_, opened, rebinds⟩
  refine
    { moves := moves, ready := ready', held_subset := held, known_eq := fun _ _ => rfl
      nextContext_le := declared.nextContext_eq.ge, untouched :=
        fun id _ differ => ?_, current := ?_
      outer := fun other below => declared.meaning?_of_lt ready.wellScoped below }
  · rw [State.hold_eq declares value]
    exact State.code_keep_of_ne differ _ value
  · rw [State.hold_eq declares value]
    exact .inl rfl

end Hold

/-- The literal for the zero of a type. -/
def zeroLiteral : BasicType → Literal
  | .float => .float 0
  | .bool => .bool false
  | .string => .string []
  | .int | .void | .invalid => .int 0

theorem zeroOf_eq (state : State) (type : BasicType) :
    zeroOf state type = literalValue state (zeroLiteral type) ∧
      state.addZero type = state.addLiteral (zeroLiteral type) := by
  cases type <;> exact ⟨rfl, rfl⟩

theorem zeroLiteral_fits (type : BasicType) : (zeroLiteral type).Fits := by
  cases type <;> simp [zeroLiteral, Literal.Fits]

theorem Begins.evaluates {declaration : VarDecl}
    (begins : Begins context before.state declaration value last)
    (written : declaration.Written) (ready : before.Ready signature? context)
    (takes : before.state.isOpen = true) :
    ∃ after : Draft, after.state = last ∧ Evaluates signature? context before after value ∧
      value.type ≠ .void := by
  cases begins with
  | @given expression _ initial run notVoid =>
      obtain ⟨after, same, evaluates⟩ :=
        lowerExpr_evaluates expression (written expression initial) ready takes run
      exact ⟨after, same, evaluates, notVoid⟩
  | @zero identifier type initial annotated named notVoid isZero =>
      subst isZero
      have evaluates := Evaluates.literal ready takes (zeroLiteral_fits type)
      obtain ⟨sameValue, sameState⟩ := zeroOf_eq before.state type
      rw [← sameValue, ← sameState] at evaluates
      refine ⟨_, rfl, evaluates, ?_⟩
      rw [zeroOf_type before.state notVoid (ofName?_ne_invalid named)]
      exact notVoid

/-- **Lowering a declaration is a course.** -/
theorem lowerVariable_course {declaration : VarDecl} (written : declaration.Written)
    (ready : before.Ready signature? context) (takes : before.state.isOpen = true)
    (run : lowerVariable context declaration before.state = .ok ((), last)) :
    ∃ after : Draft, after.state = last ∧ Course signature? context before after ∧
      after.state.isOpen = true := by
  obtain ⟨value, _, owned, table, begins, declares, rfl⟩ := lowerVariable_ok run
  obtain ⟨middle, rfl, evaluates, notVoid⟩ := begins.evaluates written ready takes
  obtain ⟨course, opened, -⟩ := Course.hold evaluates.ready (evaluates.usable notVoid) rfl ⟨_, rfl⟩
    declares evaluates.takes
  exact ⟨_, rfl, evaluates.course.trans course, opened⟩

end Declarations

/-- A course that changes no meaning in its context. -/
structure Passes (signature? : Bytes → Option Signature) (context : Nat) (before after : Draft) :
    Prop where
  /-- It is a course. -/
  course : Course signature? context before after
  /-- It changes no meaning in its context. -/
  meanings : after.state.meaning? context = before.state.meaning? context

namespace Passes

theorem trans (first : Passes signature? context before middle)
    (second : Passes signature? context middle after) : Passes signature? context before after :=
  ⟨first.course.trans second.course, second.meanings.trans first.meanings⟩

theorem of_evaluates (evaluates : Evaluates signature? context before after value) :
    Passes signature? context before after :=
  ⟨evaluates.course, congrFun evaluates.meanings context⟩

theorem jumpIfOpen (ready : before.Ready signature? context) {target : BlockName}
    (reaches : before.Reaches target) :
    Passes signature? context before ⟨before.state.jumpIfOpen target, before.known⟩ := by
  unfold State.jumpIfOpen
  split
  · rename_i takes
    exact ⟨(Course.refl ready).jump takes reaches, congrFun (State.meaning?_congr rfl rfl) context⟩
  · exact ⟨.refl ready, rfl⟩

/-- A course that turns to a block that is new to it. -/
theorem enter (passes : Passes signature? context base middle)
    (ready : base.Ready signature? context) {name : BlockName} (fresh : base.Fresh middle name) :
    Passes signature? context base ⟨middle.state.enter name, middle.known⟩ :=
  ⟨passes.course.enter fresh ready passes.meanings,
    (congrFun (State.meaning?_congr rfl rfl) context).trans passes.meanings⟩

end Passes

section Branching

variable {condition : Value}

/-- The draft with the blocks of a conditional without an alternative. -/
def Draft.makeWhen (draft : Draft) : Draft := (draft.addBlock "if.then").addBlock "if.end"

/-- The draft with the blocks of a conditional with an alternative. -/
def Draft.makeChoice (draft : Draft) : Draft :=
  ((draft.addBlock "if.then").addBlock "if.else").addBlock "if.end"

/-- New blocks and a branch to two of them, the first of which is entered. -/
theorem Prepares.fork (prepares : Prepares signature? context base middle)
    (ready : base.Ready signature? context) (takes : base.state.isOpen = true)
    (usable : base.Usable signature? condition) (truth : condition.type = .bool)
    {ifTrue ifFalse : BlockName} (first : base.Fresh middle ifTrue)
    (second : base.Fresh middle ifFalse) :
    Passes signature? context base
        ⟨(middle.state.branch condition ifTrue ifFalse).enter ifTrue, middle.known⟩ ∧
      ((middle.state.branch condition ifTrue ifFalse).enter ifTrue).isOpen = true ∧
      ∀ name : BlockName, name.id ≠ ifTrue.id → base.Fresh middle name →
        base.Fresh ⟨(middle.state.branch condition ifTrue ifFalse).enter ifTrue, middle.known⟩
          name := by
  have later := usable.mono prepares.course ready
  have leaves := (Course.refl prepares.course.ready).branch (prepares.isOpen_eq.trans takes)
    (truth ▸ later.typed) later.demands (first.reaches ready.sound prepares.course.held_subset)
    (second.reaches ready.sound prepares.course.held_subset)
  have same : (middle.state.branch condition ifTrue ifFalse).meaning? = middle.state.meaning? :=
    State.meaning?_congr rfl rfl
  refine ⟨⟨prepares.enter first ready leaves same, ?_⟩,
    (first.course leaves).isOpen leaves.ready.sound,
    fun name differ fresh => (fresh.course leaves).enter differ⟩
  exact (congrFun same context).trans (congrFun prepares.meanings context)

/-- The end of an arm: it jumps to the block behind, and another block is entered. -/
theorem Passes.turn (passes : Passes signature? context base middle)
    (ready : base.Ready signature? context) {target name : BlockName}
    (aims : base.Made middle target) (fresh : base.Fresh middle name) :
    Passes signature? context base
        ⟨(middle.state.jumpIfOpen target).enter name, middle.known⟩ ∧
      ((middle.state.jumpIfOpen target).enter name).isOpen = true ∧
      ∀ other : BlockName, other.id ≠ name.id → base.Fresh middle other →
        base.Fresh ⟨(middle.state.jumpIfOpen target).enter name, middle.known⟩ other := by
  have jumps :=
    Passes.jumpIfOpen passes.course.ready (aims.reaches ready.sound passes.course.held_subset)
  exact ⟨(passes.trans jumps).enter ready (fresh.course jumps.course),
    (fresh.course jumps.course).isOpen jumps.course.ready.sound,
    fun other differ there => (there.course jumps.course).enter differ⟩

/-- The targets of a loop may be jumped to. -/
def Draft.Loops (draft : Draft) (loop : Option LoopTargets) : Prop :=
  ∀ targets ∈ loop, draft.Reaches targets.done ∧ draft.Reaches targets.next

theorem Course.loops (course : Course signature? context before after) {loop : Option LoopTargets}
    (loops : before.Loops loop) : after.Loops loop :=
  fun targets member =>
    ⟨course.reaches (loops targets member).1, course.reaches (loops targets member).2⟩

/-- A part of lowering that passes wherever it succeeds, inside a loop. -/
def PassesAll (signature? : Bytes → Option Signature) (context : Nat) (loop : Option LoopTargets)
    (part : Build Unit) : Prop :=
  ∀ {before : Draft} {last : State}, before.Ready signature? context → before.state.isOpen = true →
    before.Loops loop → part before.state = .ok ((), last) →
    ∃ after : Draft, after.state = last ∧ Passes signature? context before after

theorem Prepares.makeWhen (ready : base.Ready signature? context) :
    Prepares signature? context base base.makeWhen ∧
      base.Fresh base.makeWhen (base.state.blockName "if.then") ∧
      base.Fresh base.makeWhen ((base.state.addBlock "if.then").blockName "if.end") := by
  have thenListed : ("if.then" : Bytes) ∈ blockLabels := by decide
  have endListed : ("if.end" : Bytes) ∈ blockLabels := by decide
  have first := (Prepares.refl ready).block thenListed
  exact ⟨first.block endListed, first.stays ((Prepares.refl ready).fresh _) endListed,
    first.fresh "if.end"⟩

theorem Prepares.makeChoice (ready : base.Ready signature? context) :
    Prepares signature? context base base.makeChoice ∧
      base.Fresh base.makeChoice (base.state.blockName "if.then") ∧
      base.Fresh base.makeChoice ((base.state.addBlock "if.then").blockName "if.else") ∧
      base.Fresh base.makeChoice
        (((base.state.addBlock "if.then").addBlock "if.else").blockName "if.end") := by
  have thenListed : ("if.then" : Bytes) ∈ blockLabels := by decide
  have elseListed : ("if.else" : Bytes) ∈ blockLabels := by decide
  have endListed : ("if.end" : Bytes) ∈ blockLabels := by decide
  have first := (Prepares.refl ready).block thenListed
  have second := first.block elseListed
  have thenFresh := first.stays ((Prepares.refl ready).fresh _) elseListed
  exact ⟨second.block endListed, second.stays thenFresh endListed,
    second.stays (first.fresh "if.else") endListed, second.fresh "if.end"⟩

section Arms

variable {loop : Option LoopTargets} (ready : base.Ready signature? context)
  (takes : base.state.isOpen = true) (loops : base.Loops loop)
  (usable : base.Usable signature? condition) (truth : condition.type = .bool)
include ready takes loops usable truth

theorem lowerWhen_course {consequent : Build Unit}
    (arm : PassesAll signature? context loop consequent)
    (run : lowerWhen condition consequent base.state = .ok ((), last)) :
    ∃ after : Draft, after.state = last ∧ Passes signature? context base after ∧
      after.state.isOpen = true := by
  obtain ⟨thenBlock, endBlock, _, _, rfl, rfl, rfl, armRun, rfl⟩ := lowerWhen_ok run
  obtain ⟨prepares, thenFresh, endFresh⟩ := Prepares.makeWhen ready
  obtain ⟨forks, opens, stays⟩ := prepares.fork ready takes usable truth thenFresh endFresh
  obtain ⟨middle, rfl, passes⟩ := arm forks.course.ready opens (forks.course.loops loops) armRun
  have behind := (stays _ (Nat.succ_ne_self _) endFresh).course passes.course
  obtain ⟨turns, ends, -⟩ := (forks.trans passes).turn ready behind.toMade behind
  exact ⟨_, rfl, turns, ends⟩

theorem lowerChoice_course {consequent alternative : Build Unit}
    (first : PassesAll signature? context loop consequent)
    (second : PassesAll signature? context loop alternative)
    (run : lowerChoice condition consequent alternative base.state = .ok ((), last)) :
    ∃ after : Draft, after.state = last ∧ Passes signature? context base after ∧
      after.state.isOpen = true := by
  obtain ⟨thenBlock, elseBlock, endBlock, _, _, _, rfl, rfl, rfl, rfl, firstRun, secondRun, rfl⟩ :=
    lowerChoice_ok run
  obtain ⟨prepares, thenFresh, elseFresh, endFresh⟩ := Prepares.makeChoice ready
  obtain ⟨forks, opens, stays⟩ := prepares.fork ready takes usable truth thenFresh elseFresh
  obtain ⟨middle, rfl, passes⟩ := first forks.course.ready opens (forks.course.loops loops) firstRun
  have other := (stays _ (Nat.succ_ne_self _) elseFresh).course passes.course
  have apart := Nat.ne_of_gt (Nat.lt_succ_of_lt (Nat.lt_succ_self base.state.function.nextBlock))
  have behind := (stays _ apart endFresh).course passes.course
  obtain ⟨turns, opensOther, staysOther⟩ := (forks.trans passes).turn ready behind.toMade other
  obtain ⟨after, rfl, passesOther⟩ :=
    second turns.course.ready opensOther (turns.course.loops loops) secondRun
  have last := (staysOther _ (Nat.succ_ne_self _) behind).course passesOther.course
  obtain ⟨ends, opensLast, -⟩ := (turns.trans passesOther).turn ready last.toMade last
  exact ⟨_, rfl, ends, opensLast⟩

end Arms

end Branching

section Loops

variable {scope : Nat} {condition advance : Option Expr}

/-- The draft with the blocks of a loop except the last. -/
def Draft.addPost (draft : Draft) (advance : Option Expr) : Draft :=
  if advance.isSome then ((draft.addBlock "loop.cond").addBlock "loop.body").addBlock "loop.post"
  else (draft.addBlock "loop.cond").addBlock "loop.body"

/-- The draft with the blocks of a loop. -/
def Draft.makeRounds (draft : Draft) (advance : Option Expr) : Draft :=
  (draft.addPost advance).addBlock "loop.end"

/-- The draft in which a loop begins. -/
def Draft.header (draft : Draft) (advance : Option Expr) : Draft :=
  ⟨draft.state.header advance, (draft.makeRounds advance).known⟩

theorem Prepares.makeRounds (ready : base.Ready signature? scope) (advance : Option Expr) :
    Prepares signature? scope base (base.makeRounds advance) ∧
      base.Fresh (base.makeRounds advance) base.state.condName ∧
      base.Fresh (base.makeRounds advance) base.state.bodyName ∧
      base.Fresh (base.makeRounds advance) (base.state.nextName advance) ∧
      base.Fresh (base.makeRounds advance) (base.state.doneName advance) := by
  have condListed : ("loop.cond" : Bytes) ∈ blockLabels := by decide
  have bodyListed : ("loop.body" : Bytes) ∈ blockLabels := by decide
  have postListed : ("loop.post" : Bytes) ∈ blockLabels := by decide
  have endListed : ("loop.end" : Bytes) ∈ blockLabels := by decide
  have first := (Prepares.refl ready).block condListed
  have second := first.block bodyListed
  have condFresh := first.stays ((Prepares.refl ready).fresh _) bodyListed
  have bodyFresh := first.fresh "loop.body"
  cases advance with
  | none =>
      exact ⟨second.block endListed, second.stays condFresh endListed,
        second.stays bodyFresh endListed, second.stays condFresh endListed, second.fresh "loop.end"⟩
  | some expression =>
      have third := second.block postListed
      exact ⟨third.block endListed, third.stays (second.stays condFresh postListed) endListed,
        third.stays (second.stays bodyFresh postListed) endListed,
        third.stays (second.fresh "loop.post") endListed, third.fresh "loop.end"⟩

theorem condName_lt_bodyName (state : State) : state.condName.id < state.bodyName.id :=
  Nat.lt_succ_self _

theorem bodyName_lt_doneName (state : State) (advance : Option Expr) :
    state.bodyName.id < (state.doneName advance).id := by
  cases advance with
  | none => exact Nat.lt_succ_self _
  | some expression => exact Nat.lt_succ_of_lt (Nat.lt_succ_self _)

theorem nextName_lt_doneName (state : State) (advance : Option Expr) :
    (state.nextName advance).id < (state.doneName advance).id := by
  cases advance with
  | none => exact Nat.lt_succ_of_lt (Nat.lt_succ_self _)
  | some expression => exact Nat.lt_succ_self _

theorem bodyName_lt_nextName (state : State) (expression : Expr) :
    state.bodyName.id < (state.nextName (some expression)).id :=
  Nat.lt_succ_self _

/-- A loop begins in a block of its own. -/
theorem Passes.header (ready : base.Ready signature? scope) (takes : base.state.isOpen = true)
    (advance : Option Expr) :
    Passes signature? scope base (base.header advance) ∧
      (base.header advance).state.isOpen = true ∧
      base.Made (base.header advance) base.state.condName ∧
      ∀ name : BlockName, name.id ≠ base.state.condName.id →
        base.Fresh (base.makeRounds advance) name → base.Fresh (base.header advance) name := by
  obtain ⟨prepares, condFresh, -, -, -⟩ := Prepares.makeRounds ready advance
  have leaves := (Course.refl prepares.course.ready).jump (prepares.isOpen_eq.trans takes)
    (condFresh.reaches ready.sound prepares.course.held_subset)
  have same : ((base.makeRounds advance).state.jump base.state.condName).meaning? =
      (base.makeRounds advance).state.meaning? := State.meaning?_congr rfl rfl
  have states : base.header advance =
      ⟨((base.makeRounds advance).state.jump base.state.condName).enter base.state.condName,
        (base.makeRounds advance).known⟩ := by
    cases advance <;> rfl
  rw [states]
  refine ⟨⟨prepares.enter condFresh ready leaves same, ?_⟩,
    (condFresh.course leaves).isOpen leaves.ready.sound,
    (condFresh.course leaves).toMade.enter base.state.condName,
    fun name differ fresh => (fresh.course leaves).enter differ⟩
  exact (congrFun same scope).trans (congrFun prepares.meanings scope)

theorem lowerTest_course {bodyBlock endBlock : BlockName}
    (written : ∀ test ∈ condition, test.Written)
    (ready : before.Ready signature? scope) (takes : before.state.isOpen = true)
    (toBody : before.Reaches bodyBlock) (toEnd : before.Reaches endBlock)
    (run : lowerTest scope bodyBlock endBlock condition before.state = .ok ((), last)) :
    ∃ after : Draft, after.state = last ∧ Passes signature? scope before after := by
  rcases lowerTest_ok run with ⟨rfl, rfl⟩ | ⟨expression, value, _, rfl, valueRun, truth, rfl⟩
  · exact ⟨_, rfl, (Course.refl ready).jump takes toBody,
      congrFun (State.meaning?_congr rfl rfl) scope⟩
  · obtain ⟨middle, rfl, evaluates⟩ :=
      lowerExpr_evaluates expression (written expression rfl) ready takes valueRun
    have usable := evaluates.usable (by simp [truth])
    refine ⟨_, rfl, evaluates.course.branch evaluates.takes (truth ▸ usable.typed) usable.demands
      (evaluates.course.reaches toBody) (evaluates.course.reaches toEnd), ?_⟩
    exact (congrFun (State.meaning?_congr rfl rfl) scope).trans (congrFun evaluates.meanings scope)

theorem lowerAdvance_course {postBlock condBlock : BlockName}
    (written : ∀ last ∈ advance, last.Written) (ready : base.Ready signature? scope)
    (passes : Passes signature? scope base before) (cond : base.Made before condBlock)
    (post : advance.isSome → base.Fresh before postBlock)
    (run : lowerAdvance scope postBlock condBlock advance before.state = .ok ((), last)) :
    ∃ after : Draft, after.state = last ∧ Passes signature? scope base after ∧
      ∀ name : BlockName, name.id ≠ postBlock.id → base.Fresh before name →
      base.Fresh after name := by
  rcases lowerAdvance_ok run with ⟨rfl, rfl⟩ | ⟨expression, value, _, rfl, valueRun, rfl⟩
  · exact ⟨before, rfl, passes, fun _ _ fresh => fresh⟩
  · have entered := passes.enter ready (post rfl)
    obtain ⟨middle, rfl, evaluates⟩ := lowerExpr_evaluates expression (written expression rfl)
      entered.course.ready ((post rfl).isOpen passes.course.ready.sound) valueRun
    have evaluated := entered.trans (.of_evaluates evaluates)
    have there := (cond.enter postBlock).course evaluates.course
    have jumps := (Course.refl evaluates.ready).jump evaluates.takes
      (there.reaches ready.sound evaluated.course.held_subset)
    refine ⟨_, rfl, evaluated.trans ⟨jumps, congrFun (State.meaning?_congr rfl rfl) scope⟩, ?_⟩
    intro name differ fresh
    exact ((fresh.enter differ).course evaluates.course).course jumps

/-- The course of the rounds of a loop, and what each part of it starts from. -/
structure Rounds (signature? : Bytes → Option Signature) (scope : Nat)
    (condition advance : Option Expr)
    (body : LoopTargets → Build Unit) (base tested middle advanced : Draft) : Prop where
  /-- A round begins with the test. -/
  testRun : lowerTest scope base.state.bodyName (base.state.doneName advance) condition
    (base.header advance).state = .ok ((), tested.state)
  /-- The test passes. -/
  tests : Passes signature? scope (base.header advance) tested
  /-- The body has a block of its own. -/
  enters : Passes signature? scope base ⟨tested.state.enter base.state.bodyName, tested.known⟩
  /-- The block of the body is empty. -/
  body_fresh : base.Fresh tested base.state.bodyName
  /-- The body may leave the loop and go on to the next round. -/
  body_loops : Draft.Loops ⟨tested.state.enter base.state.bodyName, tested.known⟩
    (some ⟨base.state.doneName advance, base.state.nextName advance⟩)
  /-- Then comes the body. -/
  bodyRun : body ⟨base.state.doneName advance, base.state.nextName advance⟩
    (tested.state.enter base.state.bodyName) = .ok ((), middle.state)
  /-- The body passes. -/
  runs : Passes signature? scope ⟨tested.state.enter base.state.bodyName, tested.known⟩ middle
  /-- At its end the body goes on to the next round. -/
  jumps : Passes signature? scope base
    ⟨middle.state.jumpIfOpen (base.state.nextName advance), middle.known⟩
  /-- What leads to the next round has an empty block. -/
  post_fresh : advance.isSome →
    base.Fresh ⟨middle.state.jumpIfOpen (base.state.nextName advance), middle.known⟩
      (base.state.nextName advance)
  /-- Last comes what leads to the next round. -/
  advanceRun : lowerAdvance scope (base.state.nextName advance) base.state.condName advance
    (middle.state.jumpIfOpen (base.state.nextName advance)) = .ok ((), advanced.state)
  /-- It passes. -/
  advances : Passes signature? scope base advanced
  /-- The block behind the loop is empty. -/
  done_fresh : base.Fresh advanced (base.state.doneName advance)

/-- **Lowering the rounds of a loop is a course.** -/
theorem lowerRounds_course {body : LoopTargets → Build Unit}
    (conditionWritten : ∀ test ∈ condition, test.Written)
    (advanceWritten : ∀ last ∈ advance, last.Written) (ready : base.Ready signature? scope)
    (takes : base.state.isOpen = true)
    (passes : ∀ targets, PassesAll signature? scope (some targets) (body targets))
    (run : lowerRounds scope condition advance body base.state = .ok ((), last)) :
    ∃ tested middle advanced : Draft,
      Rounds signature? scope condition advance body base tested middle advanced ∧
      last = advanced.state.enter (base.state.doneName advance) := by
  obtain ⟨_, _, _, testRun, bodyRun, advanceRun, rfl⟩ := lowerRounds_ok run
  obtain ⟨-, -, bodyMade, nextMade, doneMade⟩ := Prepares.makeRounds ready advance
  obtain ⟨begins, opens, condThere, stays⟩ := Passes.header ready takes advance
  have condBefore := condName_lt_bodyName base.state
  have bodyBefore := bodyName_lt_doneName base.state advance
  have nextBefore := nextName_lt_doneName base.state advance
  have bodyFresh := stays _ (by omega) bodyMade
  have doneFresh := stays _ (by omega) doneMade
  -- the block that leads to the next round is the first block of the loop or a new one
  have postFresh : advance.isSome → base.state.bodyName.id < (base.state.nextName advance).id ∧
      base.Fresh (base.header advance) (base.state.nextName advance) := by
    intro given
    obtain ⟨expression, rfl⟩ := Option.isSome_iff_exists.mp given
    have after := bodyName_lt_nextName base.state expression
    exact ⟨after, stays _ (by omega) nextMade⟩
  have nextThere : base.Made (base.header advance) (base.state.nextName advance) := by
    cases advance with
    | none => exact condThere
    | some expression => exact (postFresh rfl).2.toMade
  have held := begins.course.held_subset
  obtain ⟨tested, rfl, tests⟩ := lowerTest_course conditionWritten begins.course.ready opens
    (bodyFresh.reaches ready.sound held) (doneFresh.reaches ready.sound held) testRun
  have bodyThere := bodyFresh.course tests.course
  have enters := (begins.trans tests).enter ready bodyThere
  have doneInside :=
    (doneFresh.course tests.course).enter (show _ ≠ base.state.bodyName.id by omega)
  have nextInside := (nextThere.course tests.course).enter base.state.bodyName
  have loops : Draft.Loops ⟨tested.state.enter base.state.bodyName, tested.known⟩
      (some ⟨base.state.doneName advance, base.state.nextName advance⟩) := by
    rintro targets ⟨⟩
    exact ⟨doneInside.reaches ready.sound enters.course.held_subset,
      nextInside.reaches ready.sound enters.course.held_subset⟩
  obtain ⟨middle, rfl, runs⟩ := passes _ enters.course.ready
    (bodyThere.isOpen tests.course.ready.sound) loops bodyRun
  have jumps := Passes.jumpIfOpen runs.course.ready
    ((nextInside.course runs.course).reaches ready.sound (enters.trans runs).course.held_subset)
  have jumped := (enters.trans runs).trans jumps
  have condLater := (((condThere.course tests.course).enter base.state.bodyName).course
    runs.course).course jumps.course
  have postLater : advance.isSome → base.Fresh _ (base.state.nextName advance) := fun given =>
    ((((postFresh given).2.course tests.course).enter (show _ ≠ base.state.bodyName.id by
      have := (postFresh given).1
      omega)).course runs.course).course jumps.course
  obtain ⟨advanced, rfl, advances, keeps⟩ :=
    lowerAdvance_course advanceWritten ready jumped condLater postLater advanceRun
  have doneLater := keeps _ (by omega) ((doneInside.course runs.course).course jumps.course)
  exact ⟨tested, middle, advanced, ⟨testRun, tests, enters, bodyThere, loops, bodyRun, runs, jumped,
    postLater, advanceRun, advances, doneLater⟩, rfl⟩

theorem Rounds.leaves {body : LoopTargets → Build Unit} {tested advanced : Draft}
    (rounds : Rounds signature? scope condition advance body base tested middle advanced)
    (ready : base.Ready signature? scope) :
    Passes signature? scope base
        ⟨advanced.state.enter (base.state.doneName advance), advanced.known⟩ ∧
      (advanced.state.enter (base.state.doneName advance)).isOpen = true :=
  ⟨rounds.advances.enter ready rounds.done_fresh,
    rounds.done_fresh.isOpen rounds.advances.course.ready.sound⟩

theorem lowerStart_course {start : LoopStart} (written : start.Written)
    (ready : before.Ready signature? scope) (takes : before.state.isOpen = true)
    (run : lowerStart scope start before.state = .ok ((), last)) :
    ∃ after : Draft, after.state = last ∧ Course signature? scope before after ∧
      after.state.isOpen = true := by
  match start, written, run with
  | .variable declaration, written, run => exact lowerVariable_course written ready takes run
  | .expression statement, written, run =>
      obtain ⟨value, _, valueRun, finished⟩ := bind_ok.mp run
      obtain rfl := (Prod.mk.inj (pure_ok.mp finished)).2
      obtain ⟨after, same, evaluates⟩ :=
        lowerExpr_evaluates statement.expression written ready takes valueRun
      exact ⟨after, same, evaluates.course, evaluates.takes⟩

theorem lowerStarts_course {start : Option LoopStart} (written : ∀ first ∈ start, first.Written)
    (ready : before.Ready signature? scope) (takes : before.state.isOpen = true)
    (run : start.forM (lowerStart scope) before.state = .ok ((), last)) :
    ∃ after : Draft, after.state = last ∧ Course signature? scope before after ∧
      after.state.isOpen = true := by
  cases start with
  | none =>
      obtain ⟨-, rfl⟩ := Prod.mk.inj (pure_ok.mp run)
      exact ⟨_, rfl, .refl ready, takes⟩
  | some first => exact lowerStart_course (written first rfl) ready takes run

end Loops

/-- What lowering a statement comes to. -/
structure Lowered (signature? : Bytes → Option Signature) (context : Nat) (statement : Stmt)
    (before after : Draft) : Prop where
  /-- It is a course. -/
  course : Course signature? context before after
  /-- The statement says whether its code can be followed. -/
  isOpen_eq : after.state.isOpen = !statement.closes
  /-- Only a declaration changes the meaning of a name. -/
  meanings : statement.declares = false →
    after.state.meaning? context = before.state.meaning? context

theorem Lowered.of_passes {statement : Stmt} (passes : Passes signature? context before after)
    (isOpen_eq : after.state.isOpen = !statement.closes) :
    Lowered signature? context statement before after :=
  ⟨passes.course, isOpen_eq, fun _ => passes.meanings⟩

theorem Lowered.behind {statement : Stmt} (passes : Passes signature? context before middle)
    (lowered : Lowered signature? context statement middle after) :
    Lowered signature? context statement before after :=
  ⟨passes.course.trans lowered.course, lowered.isOpen_eq,
    fun plain => (lowered.meanings plain).trans passes.meanings⟩

/-- A terminator ends the block. -/
theorem State.isOpen_jump (owned : (before.state.function.block? before.state.current.id).isSome)
    (target : BlockName) : (before.state.jump target).isOpen = false := by
  have closed : (before.state.put (.jump target) 0).isOpen = false := State.isOpen_put owned
  exact closed

theorem lowerReturn_lowered {first : Position} {result : Option Expr} {semicolon : Token}
    (written : ∀ expression ∈ result, expression.Written)
    (ready : before.Ready signature? context) (takes : before.state.isOpen = true)
    (run : lowerReturn context first result before.state = .ok ((), last)) :
    ∃ after : Draft, after.state = last ∧
      Lowered signature? context (.return_ first result semicolon) before after := by
  rcases lowerReturn_ok run with
    ⟨rfl, void, rfl⟩ | ⟨expression, value, _, rfl, valueRun, typed, notVoid, valid, rfl⟩
  · have returns :
      (Instr.ret none).Typed before.state.function (before.state.interface signature?) :=
      void
    exact ⟨_, rfl, (Course.refl ready).emit takes rfl rfl returns (List.forall_mem_nil _)
        (by rintro _ ⟨⟩),
      State.isOpen_emit ready.sound.owned rfl,
        fun _ => congrFun (State.meaning?_congr rfl rfl) context⟩
  · obtain ⟨middle, rfl, evaluates⟩ :=
      lowerExpr_evaluates expression (written expression rfl) ready takes valueRun
    have usable := evaluates.usable (by rw [typed]; exact notVoid)
    have returns : (Instr.ret (some value)).Typed middle.state.function
        (middle.state.interface signature?) := by
      rw [Instr.Typed, ← typed]
      exact usable.typed
    refine ⟨_, rfl, evaluates.course.emit evaluates.takes rfl rfl returns ?_
        (by rintro _ ⟨⟩),
      State.isOpen_emit evaluates.ready.sound.owned rfl,
      fun _ => congrFun ((State.meaning?_congr rfl rfl).trans evaluates.meanings) context⟩
    simpa [Instr.demands, Instr.operands] using usable.demands

section Scopes

variable {loop : Option LoopTargets} {kind : ScopeKind} {label : Bytes}

theorem Draft.Loops.openScope (loops : before.Loops loop) :
    Draft.Loops ⟨before.state.openScope context kind label, before.known⟩ loop :=
  fun targets member =>
    have ⟨done, next⟩ := loops targets member
    ⟨⟨done.below, done.notEntry, done.known_subset⟩, ⟨next.below, next.notEntry, next.known_subset⟩⟩

/-- What is a course in every context passes in a scope of its own. -/
theorem PassesAll.inScope {part : Nat → Build Unit}
    (course : ∀ {inner : Nat} {before : Draft} {last : State}, before.Ready signature? inner →
      before.state.isOpen = true → before.Loops loop → part inner before.state = .ok ((), last) →
      ∃ after : Draft, after.state = last ∧ Course signature? inner before after) :
    PassesAll signature? context loop (inScope context kind label part) := by
  intro before last ready takes loops run
  obtain ⟨after, same, inner⟩ := course ready.openScope takes loops.openScope (inScope_ok.mp run).2
  obtain ⟨outer, meanings⟩ := Course.leaveScope ready inner
  exact ⟨after, same, outer, meanings⟩

/-- A loop is a course when its body is. -/
theorem lowerLoop_passes {start : Option LoopStart} {condition advance : Option Expr}
    (body : LoopTargets → Nat → Build Unit) {middle : State}
    (startWritten : ∀ first ∈ start, first.Written)
    (conditionWritten : ∀ test ∈ condition, test.Written)
    (advanceWritten : ∀ last ∈ advance, last.Written)
    (ready : before.Ready signature? context) (takes : before.state.isOpen = true)
    (course : ∀ targets, ∀ {inner : Nat} {before : Draft} {last : State},
      before.Ready signature? inner → before.state.isOpen = true → before.Loops (some targets) →
      body targets inner before.state = .ok ((), last) →
      ∃ after : Draft, after.state = last ∧ Course signature? inner before after)
    (startRun : start.forM (lowerStart before.state.nextContext)
      (before.state.openScope context kind label) = .ok ((), middle))
    (run : lowerRounds before.state.nextContext condition advance
      (fun targets => inScope before.state.nextContext .block "loop.body" (body targets)) middle =
        .ok ((), last)) :
    ∃ after : Draft, after.state = last ∧ Passes signature? context before after ∧
      after.state.isOpen = true := by
  have inside : Draft.Ready signature? ⟨before.state.openScope context kind label, before.known⟩
      before.state.nextContext := ready.openScope
  obtain ⟨base, rfl, starts, baseTakes⟩ := lowerStarts_course startWritten inside takes startRun
  obtain ⟨tested, middle, advanced, rounds, rfl⟩ := lowerRounds_course conditionWritten
    advanceWritten starts.ready baseTakes (fun targets => PassesAll.inScope (course targets)) run
  obtain ⟨leaves, isOpen⟩ := rounds.leaves starts.ready
  obtain ⟨outer, meanings⟩ := Course.leaveScope ready (starts.trans leaves.course)
  exact ⟨_, rfl, ⟨outer, meanings⟩, isOpen⟩

end Scopes

section Recursion

/-- Wherever a statement is lowered, it is a course. -/
def Lowerable (signature? : Bytes → Option Signature) (statement : Stmt) : Prop :=
  ∀ {loop : Option LoopTargets} {context : Nat} {before : Draft} {last : State},
    before.Ready signature? context → before.Loops loop →
    lowerStmt context loop statement before.state = .ok ((), last) →
    ∃ after : Draft, after.state = last ∧ Lowered signature? context statement before after

/-- Wherever statements are lowered, they are a course. -/
def LowerableAll (signature? : Bytes → Option Signature) (statements : List Stmt) : Prop :=
  ∀ {loop : Option LoopTargets} {context : Nat} {before : Draft} {last : State},
    before.Ready signature? context → before.Loops loop →
    lowerStmts context loop statements before.state = .ok ((), last) →
    ∃ after : Draft, after.state = last ∧ Course signature? context before after ∧
      after.state.isOpen =
        if statements.isEmpty then before.state.isOpen else !Stmt.closesAll statements

/-- Statements in a scope of their own pass. -/
theorem LowerableAll.passes {statements : List Stmt}
    (lowerable : LowerableAll signature? statements)
    {loop : Option LoopTargets} {kind : ScopeKind} {label : Bytes} :
    PassesAll signature? context loop
      (inScope context kind label fun inner => lowerStmts inner loop statements) :=
  PassesAll.inScope fun ready _ loops run =>
    have ⟨after, same, course, _⟩ := lowerable ready loops run
    ⟨after, same, course⟩

/-- A block that takes no more instructions is followed by a new one. -/
theorem Passes.opened (ready : before.Ready signature? context) :
    Passes signature? context before before.opened ∧ before.opened.state.isOpen = true := by
  obtain ⟨opens, takes, same⟩ := Course.opened ready
  exact ⟨⟨opens, congrFun same context⟩, takes⟩

theorem variable_lowerable {declaration : VarDecl} (written : declaration.Written) :
    Lowerable signature? (.variable declaration) := by
  intro loop context before last ready loops run
  obtain ⟨opening, takes⟩ := Passes.opened ready
  rw [lowerStmt, openBlock_bind_ok, ← Draft.opened_state] at run
  obtain ⟨after, same, course, isOpen⟩ :=
    lowerVariable_course written opening.course.ready takes run
  exact ⟨after, same, .behind opening ⟨course, isOpen, nofun⟩⟩

theorem expression_lowerable {statement : ExprStmt} (written : statement.expression.Written) :
    Lowerable signature? (.expression statement) := by
  intro loop context before last ready loops run
  obtain ⟨opening, takes⟩ := Passes.opened ready
  rw [lowerStmt, openBlock_bind_ok, ← Draft.opened_state] at run
  obtain ⟨value, _, valueRun, finished⟩ := bind_ok.mp run
  obtain rfl := (Prod.mk.inj (pure_ok.mp finished)).2
  obtain ⟨after, same, evaluates⟩ :=
    lowerExpr_evaluates statement.expression written opening.course.ready takes valueRun
  exact ⟨after, same, .behind opening (.of_passes (.of_evaluates evaluates) evaluates.takes)⟩

theorem block_lowerable {opening closing : Token} {body : List Stmt}
    (lowerable : LowerableAll signature? body) :
    Lowerable signature? (.block opening body closing) := by
  intro loop context before last ready loops run
  obtain ⟨opening, takes⟩ := Passes.opened ready
  rw [lowerStmt, openBlock_bind_ok, ← Draft.opened_state, inScope_ok] at run
  obtain ⟨after, same, inner, isOpen_eq⟩ := lowerable opening.course.ready.openScope
    (opening.course.loops loops).openScope run.2
  obtain ⟨outer, meanings⟩ := Course.leaveScope opening.course.ready inner
  refine ⟨after, same, .behind opening (.of_passes ⟨outer, meanings⟩ ?_)⟩
  rw [isOpen_eq]
  cases body with
  | nil => exact takes
  | cons first rest => rfl

section Conditionals

variable {first : Position} {condition : Expr} {opening closing : Token} {consequent : List Stmt}
  (written : condition.Written) (lowerable : LowerableAll signature? consequent)
include written lowerable

theorem when_lowerable :
    Lowerable signature? (.conditional first condition opening consequent closing none) := by
  intro loop context before last ready loops run
  obtain ⟨opening, takes⟩ := Passes.opened ready
  obtain ⟨value, _, valueRun, truth, run⟩ := lowerStmt_when_ok run
  rw [← Draft.opened_state] at valueRun
  obtain ⟨middle, rfl, evaluates⟩ :=
    lowerExpr_evaluates condition written opening.course.ready takes valueRun
  obtain ⟨after, same, passes, isOpen⟩ := lowerWhen_course evaluates.ready evaluates.takes
    (evaluates.course.loops (opening.course.loops loops)) (evaluates.usable (by simp [truth])) truth
    lowerable.passes run
  exact ⟨after, same,
    .behind opening (.of_passes ((Passes.of_evaluates evaluates).trans passes) isOpen)⟩

theorem choice_lowerable {alternative : Stmt}
    (passes : ∀ {loop : Option LoopTargets} {context : Nat},
      PassesAll signature? context loop (lowerAlternative context loop alternative)) :
    Lowerable signature?
      (.conditional first condition opening consequent closing (some alternative)) := by
  intro loop context before last ready loops run
  obtain ⟨opening, takes⟩ := Passes.opened ready
  obtain ⟨value, _, valueRun, truth, run⟩ := lowerStmt_choice_ok run
  rw [← Draft.opened_state] at valueRun
  obtain ⟨middle, rfl, evaluates⟩ :=
    lowerExpr_evaluates condition written opening.course.ready takes valueRun
  obtain ⟨after, same, passes, isOpen⟩ := lowerChoice_course evaluates.ready evaluates.takes
    (evaluates.course.loops (opening.course.loops loops)) (evaluates.usable (by simp [truth])) truth
    lowerable.passes passes run
  exact ⟨after, same,
    .behind opening (.of_passes ((Passes.of_evaluates evaluates).trans passes) isOpen)⟩

end Conditionals

/-- A conditional behind `else` passes. -/
theorem Lowerable.passes {first : Position} {condition : Expr} {opening closing : Token}
    {consequent : List Stmt} {other : Option Stmt} {loop : Option LoopTargets}
    (lowerable : Lowerable signature?
      (.conditional first condition opening consequent closing other)) :
    PassesAll signature? context loop (lowerAlternative context loop
      (.conditional first condition opening consequent closing other)) := by
  intro before last ready _ loops run
  obtain ⟨after, same, lowered⟩ := lowerable ready loops run
  exact ⟨after, same, lowered.course, lowered.meanings rfl⟩

theorem loop_lowerable {keyword opening closing : Token} {start : Option LoopStart}
    {condition advance : Option Expr} {body : List Stmt}
    (startWritten : ∀ first ∈ start, first.Written)
    (conditionWritten : ∀ test ∈ condition, test.Written)
    (advanceWritten : ∀ last ∈ advance, last.Written) (lowerable : LowerableAll signature? body) :
    Lowerable signature? (.loop keyword start condition advance opening body closing) := by
  intro loop context before last ready loops run
  obtain ⟨opening, takes⟩ := Passes.opened ready
  obtain ⟨_, startRun, run⟩ := lowerStmt_loop_ok run
  rw [← Draft.opened_state] at startRun run
  obtain ⟨after, same, passes, isOpen⟩ := lowerLoop_passes
    (fun targets inner => lowerStmts inner (some targets) body) startWritten conditionWritten
    advanceWritten opening.course.ready takes
    (fun targets _ _ _ ready _ loops run =>
      have ⟨after, same, course, _⟩ := lowerable ready loops run
      ⟨after, same, course⟩) startRun run
  exact ⟨after, same, .behind opening (.of_passes passes isOpen)⟩

theorem return_lowerable {first : Position} {value : Option Expr} {semicolon : Token}
    (written : ∀ expression ∈ value, expression.Written) :
    Lowerable signature? (.return_ first value semicolon) := by
  intro loop context before last ready loops run
  obtain ⟨opening, takes⟩ := Passes.opened ready
  rw [lowerStmt, openBlock_bind_ok, ← Draft.opened_state] at run
  obtain ⟨after, same, lowered⟩ := lowerReturn_lowered written opening.course.ready takes run
  exact ⟨after, same, lowered.behind opening⟩

/-- A jump to a block of the innermost loop. -/
theorem Lowered.jump {statement : Stmt} (closes : statement.closes = true)
    (ready : before.Ready signature? context) (takes : before.state.isOpen = true)
    {target : BlockName} (reaches : before.Reaches target) :
    Lowered signature? context statement before ⟨before.state.jump target, before.known⟩ where
  course := (Course.refl ready).jump takes reaches
  isOpen_eq := by rw [closes]; exact State.isOpen_jump ready.sound.owned _
  meanings := fun _ => congrFun (State.meaning?_congr rfl rfl) context

theorem break_lowerable (keyword : Token) : Lowerable signature? (.break_ keyword) := by
  intro loop context before last ready loops run
  obtain ⟨opening, takes⟩ := Passes.opened ready
  unfold lowerStmt at run
  rw [openBlock_bind_ok, ← Draft.opened_state] at run
  cases loop with
  | none => exact absurd run refuse_ok
  | some targets =>
      obtain ⟨-, rfl⟩ := Prod.mk.inj (jump_ok.mp run)
      exact ⟨_, rfl, .behind opening (.jump rfl opening.course.ready takes
        (opening.course.loops loops targets rfl).1)⟩

theorem continue_lowerable (keyword : Token) : Lowerable signature? (.continue_ keyword) := by
  intro loop context before last ready loops run
  obtain ⟨opening, takes⟩ := Passes.opened ready
  unfold lowerStmt at run
  rw [openBlock_bind_ok, ← Draft.opened_state] at run
  cases loop with
  | none => exact absurd run refuse_ok
  | some targets =>
      obtain ⟨-, rfl⟩ := Prod.mk.inj (jump_ok.mp run)
      exact ⟨_, rfl, .behind opening (.jump rfl opening.course.ready takes
        (opening.course.loops loops targets rfl).2)⟩

theorem function_lowerable (first : Position) : Lowerable signature? (.function first) := by
  intro loop context before last ready loops run
  rw [lowerStmt, openBlock_bind_ok] at run
  exact absurd run refuse_ok

theorem nil_lowerable : LowerableAll signature? [] := by
  intro loop context before last ready loops run
  obtain ⟨-, rfl⟩ := Prod.mk.inj (pure_ok.mp run)
  exact ⟨before, rfl, .refl ready, rfl⟩

theorem cons_lowerable {statement : Stmt} {rest : List Stmt}
    (lowerable : Lowerable signature? statement) (lowerableRest : LowerableAll signature? rest) :
    LowerableAll signature? (statement :: rest) := by
  intro loop context before last ready loops run
  rw [lowerStmts] at run
  obtain ⟨_, _, firstRun, restRun⟩ := bind_ok.mp run
  obtain ⟨middle, rfl, first⟩ := lowerable ready loops firstRun
  obtain ⟨after, rfl, course, isOpen_eq⟩ :=
    lowerableRest first.course.ready (first.course.loops loops) restRun
  refine ⟨after, rfl, first.course.trans course, ?_⟩
  rw [isOpen_eq]
  cases rest with
  | nil => exact first.isOpen_eq
  | cons next others => rfl

mutual

/-- **Lowering a statement is a course.** -/
theorem lowerStmt_lowered : ∀ statement : Stmt, statement.Written → Lowerable signature? statement
  | .expression _, written => expression_lowerable written
  | .variable _, written => variable_lowerable written
  | .block _ body _, written => block_lowerable (lowerStmts_course body written)
  | .conditional _ _ _ consequent _ none, written =>
      when_lowerable written.1 (lowerStmts_course consequent written.2)
  | .conditional _ _ _ consequent _ (some (.block _ body _)), written =>
      choice_lowerable written.1 (lowerStmts_course consequent written.2.1)
        (LowerableAll.passes (lowerStmts_course body written.2.2.2))
  | .conditional _ _ _ consequent _ (some (.conditional first test opening arm closing other)),
      written =>
      choice_lowerable written.1 (lowerStmts_course consequent written.2.1)
        (Lowerable.passes
          (lowerStmt_lowered (.conditional first test opening arm closing other) written.2.2.2))
  | .conditional _ _ _ _ _ (some (.expression _)), written
  | .conditional _ _ _ _ _ (some (.variable _)), written
  | .conditional _ _ _ _ _ (some (.loop ..)), written
  | .conditional _ _ _ _ _ (some (.return_ ..)), written
  | .conditional _ _ _ _ _ (some (.break_ _)), written
  | .conditional _ _ _ _ _ (some (.continue_ _)), written
  | .conditional _ _ _ _ _ (some (.function _)), written => written.2.2.1.elim
  | .loop _ _ _ _ _ body _, written =>
      loop_lowerable written.1 written.2.1 written.2.2.1 (lowerStmts_course body written.2.2.2)
  | .return_ _ _ _, written => return_lowerable written
  | .break_ keyword, _ => break_lowerable keyword
  | .continue_ keyword, _ => continue_lowerable keyword
  | .function first, _ => function_lowerable first

/-- **Lowering statements is a course.** -/
theorem lowerStmts_course : ∀ statements : List Stmt, Stmt.AllWritten statements →
    LowerableAll signature? statements
  | [], _ => nil_lowerable
  | statement :: rest, written =>
      cons_lowerable (lowerStmt_lowered statement written.1) (lowerStmts_course rest written.2)

end

/-- What stands behind `else` passes. -/
theorem alternative_passes {alternative : Stmt} (isAlternative : alternative.IsAlternative)
    (written : alternative.Written) {loop : Option LoopTargets} :
    PassesAll signature? context loop (lowerAlternative context loop alternative) := by
  cases alternative with
  | block opening body closing => exact LowerableAll.passes (lowerStmts_course body written)
  | conditional first condition opening consequent closing other =>
      exact Lowerable.passes (lowerStmt_lowered _ written)
  | _ => exact isAlternative.elim

end Recursion

end Lowering

end ScriptCompiler
