import ScriptCompiler.Proofs.Lowering.FunctionCourse

/-!
# The growth of the table of string constants

Lowering puts string constants behind those that are there, takes none away and keeps none twice.
-/

namespace ScriptCompiler.Lowering

open IR Build

/-- String constants with others behind them that are new. -/
structure Enlarges (texts texts' : List Bytes) : Prop where
  /-- The others are behind. -/
  isPrefix : texts <+: texts'
  /-- They are new and different. -/
  nodup : texts.Nodup → texts'.Nodup

namespace Enlarges

variable {texts texts' texts'' : List Bytes}

@[refl]
theorem refl (texts : List Bytes) : Enlarges texts texts := ⟨List.prefix_rfl, id⟩

theorem trans (first : Enlarges texts texts') (second : Enlarges texts' texts'') :
    Enlarges texts texts'' := ⟨first.isPrefix.trans second.isPrefix, second.nodup ∘ first.nodup⟩

/-- What the larger table is the beginning of, the smaller one is, too. -/
theorem within (enlarges : Enlarges texts texts') (fits : texts' <+: texts'') : texts <+: texts'' :=
  enlarges.isPrefix.trans fits

theorem of_eq (same : texts' = texts) : Enlarges texts texts' := same ▸ refl texts

theorem internString (texts : List Bytes) (content : Bytes) :
    Enlarges texts (IR.internString texts content).2 := by
  rw [IR.internString]
  split
  · rfl
  · rename_i absent
    refine ⟨List.prefix_append _ _, fun nodup => ?_⟩
    rw [List.contains_iff_mem] at absent
    rw [List.nodup_append]
    refine ⟨nodup, by simp, fun text member other isNew => ?_⟩
    obtain rfl := List.mem_singleton.mp isNew
    exact fun same => absent (same ▸ member)

end Enlarges

namespace State

variable {state : State}

@[simp]
theorem strings_emit {instr : Instr} : (state.emit instr).strings = state.strings := rfl

@[simp]
theorem strings_define {instr : Instr} : (state.define instr).strings = state.strings := rfl

@[simp]
theorem strings_load {slot : Place} : (state.load slot).strings = state.strings := strings_define

@[simp]
theorem strings_enter {name : BlockName} : (state.enter name).strings = state.strings := rfl

@[simp]
theorem strings_jump {target : BlockName} : (state.jump target).strings = state.strings := rfl

@[simp]
theorem strings_jumpIfOpen {target : BlockName} :
    (state.jumpIfOpen target).strings = state.strings := by
  unfold jumpIfOpen
  split
  · exact strings_jump
  · rfl

@[simp]
theorem strings_hold {symbol : Symbol} {type : BasicType} {value : Value} :
    (state.hold symbol type value).strings = state.strings := by
  simp [hold, bindSlot]

end State

/-- A part of lowering that takes no string constant away. -/
def Lengthens {α : Type} (part : Build α) : Prop :=
  ∀ (state last : State) (value : α), part state = .ok (value, last) →
    Enlarges state.strings last.strings

namespace Lengthens

variable {α β : Type} {part : Build α}

/-- A part that is known to change the state in some way. -/
theorem of_ok {outcome : State → α × State}
    (succeeds : ∀ {state : State} {result : α × State},
      part state = .ok result → result = outcome state)
    (keeps : ∀ state, Enlarges state.strings (outcome state).2.strings) : Lengthens part := by
  intro state last value run
  have after := keeps state
  rwa [← succeeds run] at after

theorem pure {value : α} : Lengthens (Pure.pure value : Build α) :=
  of_ok pure_ok.mp fun _ => .refl _

theorem get : Lengthens (MonadState.get : Build State) := of_ok get_ok.mp fun _ => .refl _

theorem refuse {context : Context} {position : Position} {fault : LoweringFault} :
    Lengthens (Lowering.refuse context position fault : Build α) :=
  fun _ _ _ run => absurd run refuse_ok

theorem lost {what : Bytes} : Lengthens (Lowering.lost what : Build α) :=
  fun _ _ _ run => absurd run lost_ok

theorem bind {next : α → Build β} (first : Lengthens part)
    (second : ∀ value, Lengthens (next value)) :
    Lengthens (part >>= next) := by
  intro state last value run
  obtain ⟨_, middle, firstRun, secondRun⟩ := bind_ok.mp run
  exact (first _ _ _ firstRun).trans (second _ _ _ _ secondRun)

theorem ite {test : Prop} [Decidable test] {other : Build α} (chosen : Lengthens part)
    (rejected : Lengthens other) : Lengthens (if test then part else other) := by
  split
  · exact chosen
  · exact rejected

theorem guard {test : Prop} [Decidable test] {context : Context} {position : Position}
    {fault : LoweringFault} {skipped : PUnit → Build α} (lengthens : Lengthens part) :
    Lengthens (if test then Lowering.refuse context position fault >>= skipped else part) :=
  .ite (fun _ _ _ run => by
    obtain ⟨_, _, refused, _⟩ := bind_ok.mp run
    exact absurd refused refuse_ok) lengthens

theorem optional {item : Option β} {step : β → Build α} (each : ∀ value, Lengthens (step value)) :
    Lengthens (item.mapM step) := by
  intro state last value run
  cases item with
  | none => exact pure _ _ _ run
  | some given =>
      obtain ⟨_, _, stepRun, finished⟩ := map_ok.mp run
      obtain ⟨-, rfl⟩ := Prod.mk.inj finished
      exact each given _ _ _ stepRun

theorem onTable {context : Context} {step : ScopeTable → Except Diagnostic (α × ScopeTable)} :
    Lengthens (Lowering.onTable context step) := by
  intro state last value run
  obtain ⟨-, table, -, rfl⟩ := onTable_ok.mp run
  exact .refl _

theorem inScope {context : Context} {kind : ScopeKind} {label : Bytes} {body : Context → Build Unit}
    (inner : ∀ context, Lengthens (body context)) :
    Lengthens (Lowering.inScope context kind label body) :=
  onTable.bind inner

end Lengthens

section Primitives

theorem lengthens_emit (instr : Instr) : Lengthens (emit instr) :=
  .of_ok emit_ok.mp fun _ => .refl _

theorem lengthens_freshTemp (type : BasicType) : Lengthens (freshTemp type) :=
  .of_ok freshTemp_ok.mp fun _ => .refl _

theorem lengthens_newConstant (constant : Constant) : Lengthens (newConstant constant) :=
  .of_ok newConstant_ok.mp fun _ => .refl _

theorem lengthens_newString (content : Bytes) : Lengthens (newString content) :=
  .of_ok newString_ok.mp fun _ => .internString _ _

theorem lengthens_newBlock (label : Bytes) : Lengthens (newBlock label) :=
  .of_ok newBlock_ok.mp fun _ => .refl _

theorem lengthens_enter (name : BlockName) : Lengthens (enter name) :=
  .of_ok enter_ok.mp fun _ => .refl _

theorem lengthens_jump (target : BlockName) : Lengthens (jump target) :=
  .of_ok jump_ok.mp fun _ => .of_eq State.strings_jump

theorem lengthens_branch (condition : Value) (ifTrue ifFalse : BlockName) :
    Lengthens (branch condition ifTrue ifFalse) :=
  .of_ok branch_ok.mp fun _ => .refl _

theorem lengthens_jumpIfOpen (target : BlockName) : Lengthens (jumpIfOpen target) :=
  .of_ok jumpIfOpen_ok.mp fun _ => .of_eq State.strings_jumpIfOpen

theorem lengthens_openBlock : Lengthens openBlock := by
  refine .of_ok openBlock_ok.mp fun state => ?_
  dsimp only [State.opened]
  split <;> exact .refl _

theorem lengthens_newSlot (type : BasicType) (name : Bytes) : Lengthens (newSlot type name) :=
  .of_ok newSlot_ok.mp fun _ => .refl _

theorem lengthens_holdValue (symbol : Symbol) (type : BasicType) (value : Value) :
    Lengthens (holdValue symbol type value) :=
  .of_ok holdValue_ok.mp fun _ => .of_eq State.strings_hold

theorem lengthens_loadSlot (slot : Place) : Lengthens (loadSlot slot) :=
  .of_ok loadSlot_ok.mp fun _ => .of_eq State.strings_load

theorem lengthens_noValue : Lengthens noValue :=
  (lengthens_freshTemp .void).bind fun _ => .pure

theorem lengthens_zeroValue (type : BasicType) : Lengthens (zeroValue type) := by
  cases type with
  | string => exact lengthens_newString []
  | _ => exact lengthens_newConstant _

theorem lengthens_slotOf (symbol : Symbol) : Lengthens (slotOf symbol) := by
  refine Lengthens.get.bind fun state => ?_
  cases state.slots.find? fun entry => entry.1 == (symbol.context, symbol.index) with
  | some entry => exact .pure
  | none => exact .lost

end Primitives

section Expressions

variable {context : Context}

theorem lengthens_valueType (identifier : Identifier) :
    Lengthens (valueType context identifier) := by
  refine Lengthens.bind ?_ fun _ => .guard .pure
  unfold resultType
  cases BasicType.ofName? identifier.name with
  | some type => exact .pure
  | none => exact .refuse

theorem lengthens_lookupVariable (identifier : Identifier) :
    Lengthens (lookupVariable context identifier) :=
  Lengthens.onTable.bind fun _ => .guard .pure

theorem lengthens_applyBinary (operator : TokenKind) (lexeme : Bytes) (position : Position)
    (left right : Value) : Lengthens (applyBinary context operator lexeme position left right) := by
  refine .guard ?_
  cases binaryOpcode? left.type operator with
  | none => exact .refuse
  | some opcode =>
      exact (lengthens_freshTemp _).bind fun _ => (lengthens_emit _).bind fun _ => .pure

theorem lengthens_applyUnary (operator : Token) (operand : Value) :
    Lengthens (applyUnary context operator operand) := by
  unfold applyUnary
  cases unaryOpcode? operand.type operator.kind with
  | none => exact .refuse
  | some opcode =>
      exact (lengthens_freshTemp _).bind fun _ => (lengthens_emit _).bind fun _ => .pure

theorem lengthens_requireTruth (operator : Token) (place : Position) (value : Value) :
    Lengthens (requireTruth context operator place value) := .ite .refuse .pure

theorem lengthens_lowerLogical (operator : Token) (place : Position) (first : Value)
    {right : Build Value} (lengthens : Lengthens right) :
    Lengthens (lowerLogical context operator place first right) := by
  have branches : ∀ (conjunction : Bool) (rest done : BlockName),
      Lengthens (branchLogical conjunction first rest done) := by
    intro conjunction rest done
    cases conjunction <;> exact lengthens_branch _ _ _
  exact (lengthens_newSlot _ _).bind fun _ => (lengthens_emit _).bind fun _ =>
    (lengthens_newBlock _).bind fun _ => (lengthens_newBlock _).bind fun _ =>
    (branches _ _ _).bind fun _ => (lengthens_enter _).bind fun _ => lengthens.bind fun _ =>
    (lengthens_requireTruth operator _ _).bind fun _ => (lengthens_emit _).bind fun _ =>
    (lengthens_jump _).bind fun _ => (lengthens_enter _).bind fun _ => lengthens_loadSlot _

theorem lengthens_storeVariable (symbol : Symbol) (slot : Place) (place : Position)
    (value : Value) :
    Lengthens (storeVariable context symbol slot place value) :=
  .guard ((lengthens_emit _).bind fun _ => .pure)

theorem lengthens_resolveCallee (callee : Identifier) :
    Lengthens (resolveCallee context callee) := by
  intro state last target run
  rcases resolveCallee_ok run with ⟨_, _, _, _, _, rfl⟩ | ⟨_, _, _, rfl⟩ <;> exact .refl _

theorem lengthens_emitPrint (place : Position) (value : Value) :
    Lengthens (emitPrint context place value) := by
  intro state last printed run
  obtain ⟨format, -, -, rfl⟩ := emitPrint_ok run
  have grows := lengthens_newString format state.addFormatter _ _ (newString_ok.mpr rfl)
  exact grows

theorem lengthens_emitCall (name : Bytes) (signature : Signature) (arguments : List Value) :
    Lengthens (emitCall name signature arguments) :=
  .ite ((lengthens_emit _).bind fun _ => lengthens_noValue)
    ((lengthens_freshTemp _).bind fun _ => (lengthens_emit _).bind fun _ => .pure)

mutual

/-- Lowering an expression takes no string constant away. -/
theorem lengthens_lowerExpr (expression : Expr) : Lengthens (lowerExpr context expression) := by
  match expression with
  | .literal _ value =>
      rw [lowerExpr]
      cases value with
      | string content => exact lengthens_newString _
      | _ => exact lengthens_newConstant _
  | .variable identifier =>
      rw [lowerExpr]
      exact (lengthens_lookupVariable identifier).bind fun symbol => (lengthens_slotOf symbol).bind
        fun slot => lengthens_loadSlot slot
  | .group _ inner _ =>
      rw [lowerExpr]
      exact lengthens_lowerExpr inner
  | .binary left operator right =>
      rw [lowerExpr]
      exact (lengthens_lowerExpr left).bind fun _ => (lengthens_lowerExpr right).bind fun _ =>
        lengthens_applyBinary _ _ _ _ _
  | .logical left operator right =>
      rw [lowerExpr]
      exact (lengthens_lowerExpr left).bind fun _ =>
        (lengthens_requireTruth operator _ _).bind fun _ =>
        lengthens_lowerLogical operator _ _ (lengthens_lowerExpr right)
  | .unary operator operand =>
      rw [lowerExpr]
      exact (lengthens_lowerExpr operand).bind fun _ => lengthens_applyUnary _ _
  | .assignment target operator value =>
      rw [lowerExpr]
      refine (lengthens_lookupVariable target).bind fun symbol =>
        .guard ((lengthens_slotOf symbol).bind fun slot => (lengthens_lowerExpr value).bind
          fun assigned => ?_)
      cases compoundOperator? operator.kind with
      | none => exact lengthens_storeVariable _ _ _ _
      | some arithmetic =>
          exact (lengthens_loadSlot _).bind fun _ => (lengthens_applyBinary _ _ _ _ _).bind fun _ =>
            lengthens_storeVariable _ _ _ _
  | .call callee arguments _ =>
      unfold lowerExpr
      refine (lengthens_resolveCallee callee).bind fun target => ?_
      cases target with
      | declared name signature =>
          exact .guard ((lengthens_lowerArguments arguments).bind fun _ => lengthens_emitCall _ _ _)
      | print =>
          match arguments with
          | [] => exact .refuse
          | [argument] =>
              exact (lengthens_lowerExpr argument).bind fun _ => lengthens_emitPrint _ _
          | _ :: _ :: _ => exact .refuse

/-- Lowering arguments takes no string constant away. -/
theorem lengthens_lowerArguments (arguments : List Expr) {name : Bytes} {number : Nat}
    {types : List BasicType} : Lengthens (lowerArguments context name number types arguments) := by
  match types, arguments with
  | wanted :: types, argument :: arguments =>
      rw [lowerArguments]
      exact (lengthens_lowerExpr argument).bind fun _ =>
        .guard ((lengthens_lowerArguments arguments).bind fun _ => .pure)
  | [], arguments =>
      unfold lowerArguments
      exact .pure
  | _ :: _, [] =>
      unfold lowerArguments
      exact .pure

end

end Expressions

section Statements

variable {context : Context}

theorem lengthens_lowerVariable (declaration : VarDecl) :
    Lengthens (lowerVariable context declaration) := by
  have initial : ∀ declared expression,
      Lengthens (lowerInitial context declaration.name.name declared expression) := by
    intro declared expression
    refine (lengthens_lowerExpr expression).bind fun _ => .guard ?_
    cases declared with
    | none => exact .pure
    | some type => exact .guard .pure
  refine (Lengthens.optional lengthens_valueType).bind fun declared =>
    (Lengthens.optional (initial declared)).bind fun given => ?_
  cases declared.or (given.map Value.type) with
  | none => exact .refuse
  | some type =>
      refine Lengthens.onTable.bind fun symbol => Lengthens.bind ?_ fun _ =>
        lengthens_holdValue _ _ _
      cases given with
      | some value => exact .pure
      | none => exact lengthens_zeroValue type

theorem lengthens_lowerStart (start : LoopStart) : Lengthens (lowerStart context start) := by
  cases start with
  | «variable» declaration => exact lengthens_lowerVariable declaration
  | expression statement => exact (lengthens_lowerExpr _).bind fun _ => .pure

theorem lengthens_lowerCondition (owner : Bytes) (expression : Expr) :
    Lengthens (lowerCondition context owner expression) :=
  (lengthens_lowerExpr expression).bind fun _ => .guard .pure

theorem lengthens_lowerReturn (first : Position) (value : Option Expr) :
    Lengthens (lowerReturn context first value) := by
  cases value with
  | none => exact Lengthens.get.bind fun _ => .guard (lengthens_emit _)
  | some expression =>
      exact (lengthens_lowerExpr expression).bind fun _ => Lengthens.get.bind fun _ =>
        .guard (.guard (lengthens_emit _))

theorem lengthens_lowerWhen (condition : Value) {consequent : Build Unit}
    (lengthens : Lengthens consequent) : Lengthens (lowerWhen condition consequent) :=
  (lengthens_newBlock _).bind fun _ => (lengthens_newBlock _).bind fun _ =>
    (lengthens_branch _ _ _).bind fun _ => (lengthens_enter _).bind fun _ => lengthens.bind fun _ =>
    (lengthens_jumpIfOpen _).bind fun _ => lengthens_enter _

theorem lengthens_lowerChoice (condition : Value) {consequent alternative : Build Unit}
    (first : Lengthens consequent) (second : Lengthens alternative) :
    Lengthens (lowerChoice condition consequent alternative) :=
  (lengthens_newBlock _).bind fun _ => (lengthens_newBlock _).bind fun _ =>
    (lengthens_newBlock _).bind fun _ => (lengthens_branch _ _ _).bind fun _ =>
    (lengthens_enter _).bind fun _ => first.bind fun _ => (lengthens_jumpIfOpen _).bind fun _ =>
    (lengthens_enter _).bind fun _ => second.bind fun _ => (lengthens_jumpIfOpen _).bind fun _ =>
    lengthens_enter _

theorem lengthens_lowerTest (bodyBlock endBlock : BlockName) (condition : Option Expr) :
    Lengthens (lowerTest context bodyBlock endBlock condition) := by
  cases condition with
  | none => exact lengthens_jump _
  | some expression => exact (lengthens_lowerCondition _ _).bind fun _ => lengthens_branch _ _ _

theorem lengthens_lowerAdvance (postBlock condBlock : BlockName) (advance : Option Expr) :
    Lengthens (lowerAdvance context postBlock condBlock advance) := by
  cases advance with
  | none => exact .pure
  | some expression =>
      exact (lengthens_enter _).bind fun _ => (lengthens_lowerExpr _).bind fun _ => lengthens_jump _

theorem lengthens_lowerRounds (condition advance : Option Expr) {body : LoopTargets → Build Unit}
    (lengthens : ∀ targets, Lengthens (body targets)) :
    Lengthens (lowerRounds context condition advance body) :=
  (lengthens_newBlock _).bind fun _ => (lengthens_newBlock _).bind fun _ =>
    (Lengthens.optional fun _ => lengthens_newBlock _).bind fun _ =>
      (lengthens_newBlock _).bind fun _ =>
    (lengthens_jump _).bind fun _ => (lengthens_enter _).bind fun _ =>
    (lengthens_lowerTest _ _ _).bind fun _ => (lengthens_enter _).bind fun _ =>
    (lengthens _).bind fun _ => (lengthens_jumpIfOpen _).bind fun _ =>
    (lengthens_lowerAdvance _ _ _).bind fun _ => lengthens_enter _

mutual

/-- Lowering a statement takes no string constant away. -/
theorem lengthens_lowerStmt (statement : Stmt) {context : Context} {loop : Option LoopTargets} :
    Lengthens (lowerStmt context loop statement) := by
  match statement with
  | .variable declaration =>
      rw [lowerStmt]
      exact lengthens_openBlock.bind fun _ => lengthens_lowerVariable _
  | .expression statement =>
      rw [lowerStmt]
      exact lengthens_openBlock.bind fun _ => (lengthens_lowerExpr _).bind fun _ => .pure
  | .block _ body _ =>
      rw [lowerStmt]
      exact lengthens_openBlock.bind fun _ => .inScope fun _ => lengthens_lowerStmts body
  | .conditional _ condition _ consequent _ none =>
      rw [lowerStmt]
      exact lengthens_openBlock.bind fun _ => (lengthens_lowerCondition _ _).bind fun _ =>
        lengthens_lowerWhen _ (.inScope fun _ => lengthens_lowerStmts consequent)
  | .conditional _ condition _ consequent _ (some alternative) =>
      rw [lowerStmt_choice]
      refine lengthens_openBlock.bind fun _ => (lengthens_lowerCondition _ _).bind fun _ =>
        lengthens_lowerChoice _ (.inScope fun _ => lengthens_lowerStmts consequent) ?_
      unfold lowerAlternative
      split
      · rename_i body _
        exact .inScope fun _ => lengthens_lowerStmts body
      · exact lengthens_lowerStmt alternative
  | .loop _ start condition advance _ body _ =>
      rw [lowerStmt]
      refine lengthens_openBlock.bind fun _ => .inScope fun scope => Lengthens.bind ?_ fun _ =>
        lengthens_lowerRounds _ _ fun _ => .inScope fun _ => lengthens_lowerStmts body
      cases start with
      | none => exact .pure
      | some first => exact lengthens_lowerStart first
  | .return_ first value _ =>
      rw [lowerStmt]
      exact lengthens_openBlock.bind fun _ => lengthens_lowerReturn _ _
  | .break_ keyword =>
      unfold lowerStmt
      cases loop with
      | none => exact lengthens_openBlock.bind fun _ => .refuse
      | some targets => exact lengthens_openBlock.bind fun _ => lengthens_jump _
  | .continue_ keyword =>
      unfold lowerStmt
      cases loop with
      | none => exact lengthens_openBlock.bind fun _ => .refuse
      | some targets => exact lengthens_openBlock.bind fun _ => lengthens_jump _
  | .function first =>
      rw [lowerStmt]
      exact lengthens_openBlock.bind fun _ => .refuse
termination_by sizeOf statement

/-- Lowering statements takes no string constant away. -/
theorem lengthens_lowerStmts (statements : List Stmt) {context : Context}
    {loop : Option LoopTargets} : Lengthens (lowerStmts context loop statements) := by
  match statements with
  | [] => exact .pure
  | statement :: rest =>
      rw [lowerStmts]
      exact (lengthens_lowerStmt statement).bind fun _ => lengthens_lowerStmts rest
termination_by sizeOf statements

end

theorem lengthens_spillParams (params : List (Param × Place)) :
    Lengthens (spillParams context params) := by
  induction params with
  | nil => exact .pure
  | cons entry rest ih =>
      exact Lengthens.onTable.bind fun _ => (lengthens_holdValue _ _ _).bind fun _ => ih

theorem lengthens_closeBlocks (blocks : List Block) : Lengthens (closeBlocks blocks) := by
  induction blocks with
  | nil => exact .pure
  | cons block rest ih =>
      rw [closeBlocks]
      exact .ite ((lengthens_enter _).bind fun _ => Lengthens.get.bind fun _ =>
        .ite ((lengthens_emit _).bind fun _ => ih)
          ((lengthens_zeroValue _).bind fun _ => (lengthens_emit _).bind fun _ => ih)) ih

end Statements

end ScriptCompiler.Lowering
