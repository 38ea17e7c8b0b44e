import ScriptCompiler.Proofs.Lowering.Steps

/-!
# What successful lowering has done

One lemma for each part of lowering: the checks that a successful run has passed, the states between
its parts and the state that it ends in.
-/

namespace ScriptCompiler.Lowering

open IR Build

variable {state last : State} {context : Context}

section Expressions

/-- The value of a literal: a constant or a string constant. -/
def literalValue (state : State) : Literal → Value
  | .int value => .constant (.int value)
  | .float value => .constant (.float value)
  | .bool value => .constant (.bool value)
  | .string content => .string (state.textIndex content)

/-- The state behind a literal. -/
def State.addLiteral (state : State) : Literal → State
  | .string content => state.addText content
  | _ => state.skip

theorem lowerLiteral_ok {literal : Literal} {result : Value × State} :
    lowerLiteral literal state = .ok result ↔
      result = (literalValue state literal, state.addLiteral literal) := by
  cases literal with
  | int value => exact newConstant_ok
  | float value => exact newConstant_ok
  | bool value => exact newConstant_ok
  | string content => exact newString_ok

/-- The state with a symbol marked as used. -/
def State.use (state : State) (symbol : Symbol) (name : Bytes) : State :=
  state.withTable (state.table.markUsed symbol.context name)

theorem resolve_ok {table : ScopeTable} {name : Bytes} {use : Position}
    {result : Symbol × ScopeTable} :
    table.resolve context name use = .ok result ↔
      ∃ symbol, table.find? context name = some symbol ∧
        result = ({ symbol with used := true }, table.markUsed symbol.context name) := by
  unfold ScopeTable.resolve
  cases table.find? context name with
  | none => simp
  | some symbol => simp [eq_comm]

theorem lookupVariable_ok {identifier : Identifier} {symbol : Symbol}
    (run : lookupVariable context identifier state = .ok (symbol, last)) :
    ∃ found, state.table.find? context identifier.name = some found ∧ found.kind ≠ .function ∧
      symbol = { found with used := true } ∧ last = state.use found identifier.name := by
  obtain ⟨resolved, middle, resolution, rest⟩ := bind_ok.mp run
  obtain ⟨notFunction, finished⟩ := guard_ok.mp rest
  obtain ⟨-, table, resolves, rfl⟩ := onTable_ok.mp resolution
  obtain ⟨found, finds, same⟩ := resolve_ok.mp resolves
  obtain ⟨rfl, rfl⟩ := Prod.mk.inj same
  obtain ⟨rfl, rfl⟩ := Prod.mk.inj (pure_ok.mp finished)
  exact ⟨found, finds, by simpa using notFunction, rfl, rfl⟩

/-- The instruction that loads a slot into the next value. -/
def State.load (state : State) (slot : Place) : State :=
  state.define (.load ⟨state.nextId, slot.type⟩ (.slot slot))

theorem loadSlot_ok {slot : Place} {result : Value × State} :
    loadSlot slot state = .ok result ↔
      result = (.temp ⟨state.nextId, slot.type⟩, state.load slot) := by
  simp only [loadSlot, bind_ok, freshTemp_ok, emit_ok, pure_ok, Prod.mk.injEq, and_assoc,
    exists_eq_left, exists_and_left, true_and, exists_const, State.load, State.define]

theorem applyBinary_ok {operator : TokenKind} {lexeme : Bytes} {position : Position}
    {left right value : Value}
    (run : applyBinary context operator lexeme position left right state = .ok (value, last)) :
    left.type = right.type ∧ ∃ opcode, binaryOpcode? left.type operator = some opcode ∧
      ∃ dest : Temp, dest = ⟨state.nextId, if opcode.isComparison then .bool else left.type⟩ ∧
        value = .temp dest ∧ last = state.define (.binary opcode dest left right) := by
  obtain ⟨agreement, rest⟩ := guard_ok.mp run
  have same : left.type = right.type := by
    simp only [BasicType.agrees, Bool.not_eq_true', Bool.not_eq_false, Bool.and_eq_true,
      beq_iff_eq] at agreement
    exact agreement.1
  refine ⟨same, ?_⟩
  cases found : binaryOpcode? left.type operator with
  | none =>
      rw [found] at rest
      exact absurd rest refuse_ok
  | some opcode =>
      rw [found] at rest
      simp only [bind_ok, freshTemp_ok, emit_ok, pure_ok, Prod.mk.injEq, and_assoc, exists_eq_left,
        exists_and_left, true_and, exists_const] at rest
      obtain ⟨rfl, rfl⟩ := rest
      exact ⟨opcode, rfl, _, rfl, rfl, rfl⟩

theorem applyUnary_ok {operator : Token} {operand value : Value}
    (run : applyUnary context operator operand state = .ok (value, last)) :
    ∃ opcode, unaryOpcode? operand.type operator.kind = some opcode ∧
      ∃ dest : Temp, dest = ⟨state.nextId, operand.type⟩ ∧
        value = .temp dest ∧ last = state.define (.unary opcode dest operand) := by
  unfold applyUnary at run
  cases found : unaryOpcode? operand.type operator.kind with
  | none =>
      rw [found] at run
      exact absurd run refuse_ok
  | some opcode =>
      rw [found] at run
      simp only [bind_ok, freshTemp_ok, emit_ok, pure_ok, Prod.mk.injEq, and_assoc, exists_eq_left,
        exists_and_left, true_and, exists_const] at run
      obtain ⟨rfl, rfl⟩ := run
      exact ⟨opcode, rfl, _, rfl, rfl, rfl⟩

theorem requireTruth_ok {operator : Token} {place : Position} {value : Value}
    (run : requireTruth context operator place value state = .ok ((), last)) :
    value.type = .bool ∧ last = state := by
  obtain ⟨truth, same⟩ := guardLast_ok.mp run
  exact ⟨by simpa using truth, (Prod.mk.inj same).2⟩

theorem assignable_iff {type target : BasicType} :
    type.assignableTo target = true ↔ type = target ∧ type ≠ .void ∧ type ≠ .invalid := by
  cases type <;> cases target <;> decide

theorem storeVariable_ok {symbol : Symbol} {slot : Place} {place : Position} {stored value : Value}
    (run : storeVariable context symbol slot place stored state = .ok (value, last)) :
    stored.type = slot.type ∧ value = stored ∧ last = state.emit (.store (.slot slot) stored) := by
  obtain ⟨assignable, rest⟩ := guard_ok.mp run
  simp only [bind_ok, emit_ok, pure_ok, Prod.mk.injEq, exists_eq_left, exists_and_left, true_and,
    exists_const] at rest
  obtain ⟨rfl, rfl⟩ := rest
  simp only [Bool.not_eq_true', Bool.not_eq_false, assignable_iff] at assignable
  exact ⟨assignable.1, rfl, rfl⟩

theorem resolveCallee_ok {callee : Identifier} {target : Target}
    (run : resolveCallee context callee state = .ok (target, last)) :
    (∃ found signature, state.table.find? context callee.name = some found ∧
        (found.type >>= Ty.signature?) = some signature ∧
        target = .declared found.name signature ∧ last = state.use found callee.name) ∨
      (state.table.find? context callee.name = none ∧ callee.name = printName ∧
        target = .print ∧ last = state) := by
  simp only [resolveCallee, bind_ok, tableAt_ok, Prod.mk.injEq, and_assoc, exists_eq_left,
    exists_and_left] at run
  replace run := run.2
  cases found : state.table.find? context callee.name with
  | none =>
      simp only [ScopeTable.resolve, found] at run
      split at run
      · obtain ⟨rfl, rfl⟩ := Prod.mk.inj (pure_ok.mp run)
        exact .inr ⟨rfl, by simp_all, rfl, rfl⟩
      · cases run
  | some symbol =>
      simp only [ScopeTable.resolve, found] at run
      obtain ⟨_, middle, placed, rest⟩ := bind_ok.mp run
      obtain rfl : state.use symbol callee.name = middle := (Prod.mk.inj (Except.ok.inj placed)).2
      cases typed : symbol.type >>= Ty.signature? with
      | none =>
          simp only [typed] at rest
          exact absurd rest refuse_ok
      | some signature =>
          simp only [typed] at rest
          obtain ⟨rfl, rfl⟩ := Prod.mk.inj (pure_ok.mp rest)
          exact .inl ⟨symbol, signature, rfl, typed, rfl, rfl⟩

/-- The state behind a call of the output function. -/
def State.print (state : State) (format : Bytes) (value : Value) : State :=
  (((state.addFormatter).addText format).emit
    (.call none ⟨.external, formatter.name⟩
      [.string (state.addFormatter.textIndex format), value])).skip

theorem emitPrint_ok {place : Position} {printed value : Value}
    (run : emitPrint context place printed state = .ok (value, last)) :
    ∃ format, printFormat? printed.type = some format ∧
      value = .temp ⟨state.nextId, .void⟩ ∧ last = state.print format printed := by
  unfold emitPrint at run
  cases found : printFormat? printed.type with
  | none =>
      rw [found] at run
      exact absurd run refuse_ok
  | some format =>
      rw [found] at run
      obtain ⟨_, declared, placed, rest⟩ := bind_ok.mp run
      obtain rfl : state.addFormatter = declared := (Prod.mk.inj (Except.ok.inj placed)).2
      simp only [noValue, bind_ok, newString_ok, emit_ok, freshTemp_ok, pure_ok, Prod.mk.injEq,
        and_assoc, exists_eq_left, exists_and_left, true_and, exists_const] at rest
      obtain ⟨rfl, rfl⟩ := rest
      exact ⟨format, rfl, rfl, rfl⟩

/-- The state behind a call of a declared function. -/
def State.invoke (state : State) (name : Bytes) (result : BasicType) (arguments : List Value) :
    State :=
  if result == .void then (state.emit (.call none ⟨.defined, name⟩ arguments)).skip
  else state.define (.call (some ⟨state.nextId, result⟩) ⟨.defined, name⟩ arguments)

theorem emitCall_ok {name : Bytes} {signature : Signature} {arguments : List Value}
    {value : Value} :
    emitCall name signature arguments state = .ok (value, last) ↔
      value = .temp ⟨state.nextId, signature.result⟩ ∧
        last = state.invoke name signature.result arguments := by
  unfold emitCall State.invoke
  by_cases nothing : signature.result = .void
  · simp only [nothing, beq_self_eq_true, if_true, noValue, bind_ok, emit_ok, freshTemp_ok, pure_ok,
      Prod.mk.injEq, and_assoc, exists_eq_left, exists_and_left, true_and, exists_const]
    rfl
  · simp only [beq_iff_eq, nothing, if_false, bind_ok, emit_ok, freshTemp_ok, pure_ok,
      Prod.mk.injEq,
      and_assoc, exists_eq_left, exists_and_left, true_and, exists_const, State.define]

-- The equations of the function are made here, once, for all the inversions below.
attribute [local simp] lowerExpr in
theorem lowerExpr_variable_ok {identifier : Identifier} {value : Value}
    (run : lowerExpr context (.variable identifier) state = .ok (value, last)) :
    ∃ found slot, state.table.find? context identifier.name = some found ∧
      found.kind ≠ .function ∧ state.slot? found = some slot ∧
      value = .temp ⟨state.nextId, slot.type⟩ ∧
      last = (state.use found identifier.name).load slot := by
  rw [lowerExpr] at run
  obtain ⟨symbol, middle, looked, rest⟩ := bind_ok.mp run
  obtain ⟨found, finds, kind, rfl, rfl⟩ := lookupVariable_ok looked
  obtain ⟨_, _, slots, rest⟩ := bind_ok.mp rest
  obtain ⟨slot, held, same⟩ := slotOf_ok.mp slots
  obtain ⟨rfl, rfl⟩ := Prod.mk.inj same
  obtain ⟨rfl, rfl⟩ := Prod.mk.inj (loadSlot_ok.mp rest)
  exact ⟨found, _, finds, kind, held, rfl, rfl⟩

/-- The state before the right operand of a logical operator, in the block of its own. -/
def State.beginLogical (state : State) (operator : Token) (first : Value) : State :=
  let slot : Place := ⟨state.nextId, (logicalName operator).2, .bool⟩
  let kept := (state.define (.alloca slot)).emit (.store (.slot slot) first)
  let rest := kept.blockName ((logicalName operator).2 ++ ".rhs")
  let restMade := kept.addBlock ((logicalName operator).2 ++ ".rhs")
  let done := restMade.blockName ((logicalName operator).2 ++ ".end")
  let doneMade := restMade.addBlock ((logicalName operator).2 ++ ".end")
  (if (logicalName operator).1 then doneMade.branch first rest done
    else doneMade.branch first done rest).enter rest

/-- The block behind a logical operator. -/
def State.logicalEnd (state : State) (operator : Token) (first : Value) : BlockName :=
  let slot : Place := ⟨state.nextId, (logicalName operator).2, .bool⟩
  let kept := (state.define (.alloca slot)).emit (.store (.slot slot) first)
  (kept.addBlock ((logicalName operator).2 ++ ".rhs")).blockName
    ((logicalName operator).2 ++ ".end")

theorem lowerLogical_ok {operator : Token} {place : Position} {first value : Value}
    {right : Build Value}
    (run : lowerLogical context operator place first right state = .ok (value, last)) :
    ∃ (slot : Place) (second : Value) (middle : State),
      slot = ⟨state.nextId, (logicalName operator).2, .bool⟩ ∧
      right (state.beginLogical operator first) = .ok (second, middle) ∧ second.type = .bool ∧
      ∃ ending : State,
        ending = ((middle.emit (.store (.slot slot) second)).jump
          (state.logicalEnd operator first)).enter (state.logicalEnd operator first) ∧
        value = .temp ⟨ending.nextId, .bool⟩ ∧ last = ending.load slot := by
  have branches : ∀ {conjunction : Bool} {rest done : BlockName} {state : State}
      {result : Unit × State},
      branchLogical conjunction first rest done state = .ok result ↔
        result = ((), if conjunction then state.branch first rest done
          else state.branch first done rest) := by
    intro conjunction rest done state result
    cases conjunction <;> exact branch_ok
  simp only [lowerLogical, bind_ok, newSlot_ok, emit_ok, newBlock_ok, branches, enter_ok, jump_ok,
    loadSlot_ok, Prod.mk.injEq, and_assoc, exists_eq_left, exists_and_left, true_and,
    exists_const] at run
  obtain ⟨second, middle, ran, _, checked, required, rfl, rfl⟩ := run
  obtain ⟨truth, unchanged⟩ := requireTruth_ok required
  subst unchanged
  exact ⟨_, second, _, rfl, ran, truth, _, rfl, rfl, rfl⟩

theorem lowerExpr_binary_ok {left right : Expr} {operator : Token} {value : Value}
    (run : lowerExpr context (.binary left operator right) state = .ok (value, last)) :
    ∃ first middle second after, lowerExpr context left state = .ok (first, middle) ∧
      lowerExpr context right middle = .ok (second, after) ∧
      applyBinary context operator.kind operator.lexeme operator.position first second after =
        .ok (value, last) := by
  rw [lowerExpr] at run
  obtain ⟨first, middle, leftRun, rest⟩ := bind_ok.mp run
  obtain ⟨second, after, rightRun, applied⟩ := bind_ok.mp rest
  exact ⟨first, middle, second, after, leftRun, rightRun, applied⟩

theorem lowerExpr_logical_ok {left right : Expr} {operator : Token} {value : Value}
    (run : lowerExpr context (.logical left operator right) state = .ok (value, last)) :
    ∃ first middle, lowerExpr context left state = .ok (first, middle) ∧ first.type = .bool ∧
      lowerLogical context operator right.first first (lowerExpr context right) middle =
        .ok (value, last) := by
  rw [lowerExpr] at run
  obtain ⟨first, middle, leftRun, rest⟩ := bind_ok.mp run
  obtain ⟨_, same, required, logical⟩ := bind_ok.mp rest
  obtain ⟨truth, rfl⟩ := requireTruth_ok required
  exact ⟨first, same, leftRun, truth, logical⟩

theorem lowerExpr_unary_ok {operand : Expr} {operator : Token} {value : Value}
    (run : lowerExpr context (.unary operator operand) state = .ok (value, last)) :
    ∃ read middle, lowerExpr context operand state = .ok (read, middle) ∧
      applyUnary context operator read middle = .ok (value, last) := by
  rw [lowerExpr] at run
  exact bind_ok.mp run

theorem lowerExpr_assignment_ok {target : Identifier} {operator : Token} {expression : Expr}
    {value : Value}
    (run : lowerExpr context (.assignment target operator expression) state = .ok (value, last)) :
    ∃ found slot assigned middle, state.table.find? context target.name = some found ∧
      found.kind ≠ .function ∧ state.slot? found = some slot ∧
      lowerExpr context expression (state.use found target.name) = .ok (assigned, middle) ∧
      ((compoundOperator? operator.kind = none ∧ assigned.type = slot.type ∧ value = assigned ∧
          last = middle.emit (.store (.slot slot) assigned)) ∨
        ∃ arithmetic after, compoundOperator? operator.kind = some arithmetic ∧
          applyBinary context arithmetic (operator.lexeme.take 1) operator.position
            (.temp ⟨middle.nextId, slot.type⟩) assigned (middle.load slot) = .ok (value, after) ∧
          value.type = slot.type ∧ last = after.emit (.store (.slot slot) value)) := by
  rw [lowerExpr] at run
  obtain ⟨symbol, marked, looked, rest⟩ := bind_ok.mp run
  obtain ⟨found, finds, kind, rfl, rfl⟩ := lookupVariable_ok looked
  obtain ⟨-, rest⟩ := guard_ok.mp rest
  obtain ⟨_, _, slots, rest⟩ := bind_ok.mp rest
  obtain ⟨slot, held, same⟩ := slotOf_ok.mp slots
  obtain ⟨rfl, rfl⟩ := Prod.mk.inj same
  obtain ⟨assigned, middle, assignedRun, stored⟩ := bind_ok.mp rest
  refine ⟨found, _, assigned, middle, finds, kind, held, assignedRun, ?_⟩
  cases compound : compoundOperator? operator.kind with
  | none =>
      rw [compound] at stored
      obtain ⟨types, rfl, rfl⟩ := storeVariable_ok stored
      exact .inl ⟨rfl, types, rfl, rfl⟩
  | some arithmetic =>
      rw [compound] at stored
      simp only [bind_ok, loadSlot_ok, Prod.mk.injEq, and_assoc, exists_eq_left,
        exists_and_left] at stored
      obtain ⟨combined, after, applied, kept⟩ := stored
      obtain ⟨types, rfl, rfl⟩ := storeVariable_ok kept
      exact .inr ⟨arithmetic, after, rfl, applied, types, rfl⟩

theorem lowerArguments_cons_ok {name : Bytes} {number : Nat} {wanted : BasicType}
    {types : List BasicType} {argument : Expr} {arguments : List Expr} {values : List Value}
    (run : lowerArguments context name number (wanted :: types) (argument :: arguments) state =
      .ok (values, last)) :
    ∃ value middle rest, lowerExpr context argument state = .ok (value, middle) ∧
      value.type = wanted ∧ value.type ≠ .void ∧
      lowerArguments context name (number + 1) types arguments middle = .ok (rest, last) ∧
      values = value :: rest := by
  rw [lowerArguments] at run
  obtain ⟨value, middle, valueRun, rest⟩ := bind_ok.mp run
  obtain ⟨assignable, rest⟩ := guard_ok.mp rest
  obtain ⟨others, after, othersRun, finished⟩ := bind_ok.mp rest
  obtain ⟨rfl, rfl⟩ := Prod.mk.inj (pure_ok.mp finished)
  simp only [Bool.not_eq_true', Bool.not_eq_false, assignable_iff] at assignable
  exact ⟨value, middle, others, valueRun, assignable.1, assignable.2.1, othersRun, rfl⟩

theorem lowerExpr_call_ok {callee : Identifier} {arguments : List Expr} {closing : Token}
    {value : Value}
    (run : lowerExpr context (.call callee arguments closing) state = .ok (value, last)) :
    (∃ found signature values middle, state.table.find? context callee.name = some found ∧
        (found.type >>= Ty.signature?) = some signature ∧
        arguments.length = signature.params.length ∧
        lowerArguments context found.name 1 signature.params arguments
          (state.use found callee.name) = .ok (values, middle) ∧
        value = .temp ⟨middle.nextId, signature.result⟩ ∧
        last = middle.invoke found.name signature.result values) ∨
      (∃ argument printed middle format, state.table.find? context callee.name = none ∧
        callee.name = printName ∧ arguments = [argument] ∧
        lowerExpr context argument state = .ok (printed, middle) ∧
        printFormat? printed.type = some format ∧ value = .temp ⟨middle.nextId, .void⟩ ∧
        last = middle.print format printed) := by
  unfold lowerExpr at run
  obtain ⟨target, resolved, resolution, rest⟩ := bind_ok.mp run
  rcases resolveCallee_ok resolution with
    ⟨found, signature, finds, typed, rfl, rfl⟩ | ⟨absent, isPrint, rfl, rfl⟩
  · left
    obtain ⟨count, rest⟩ := guard_ok.mp rest
    obtain ⟨values, middle, valuesRun, called⟩ := bind_ok.mp rest
    obtain ⟨rfl, rfl⟩ := emitCall_ok.mp called
    exact ⟨found, signature, values, middle, finds, typed, by simpa using count,
      valuesRun, rfl, rfl⟩
  · right
    match arguments with
    | [argument] =>
        dsimp only at rest
        obtain ⟨printed, middle, printedRun, emitted⟩ := bind_ok.mp rest
        obtain ⟨format, formats, rfl, rfl⟩ := emitPrint_ok emitted
        exact ⟨argument, printed, middle, format, absent, isPrint, rfl, printedRun,
          formats, rfl, rfl⟩
    | [] => exact absurd rest refuse_ok
    | _ :: _ :: _ => exact absurd rest refuse_ok

end Expressions

section Statements

/-- The zero of a type. -/
def zeroOf (state : State) : BasicType → Value
  | .float => .constant (.float 0)
  | .bool => .constant (.bool false)
  | .string => .string (state.textIndex [])
  | _ => .constant (.int 0)

/-- The state behind the zero of a type. -/
def State.addZero (state : State) : BasicType → State
  | .string => state.addText []
  | _ => state.skip

theorem zeroValue_ok {type : BasicType} {result : Value × State} :
    zeroValue type state = .ok result ↔ result = (zeroOf state type, state.addZero type) := by
  cases type with
  | string => exact newString_ok
  | float | bool | int | void | invalid => exact newConstant_ok

theorem resultType_ok {identifier : Identifier} {type : BasicType}
    (run : resultType context identifier state = .ok (type, last)) :
    BasicType.ofName? identifier.name = some type ∧ last = state := by
  unfold resultType at run
  cases named : BasicType.ofName? identifier.name with
  | none =>
      rw [named] at run
      exact absurd run refuse_ok
  | some found =>
      rw [named] at run
      obtain ⟨rfl, rfl⟩ := Prod.mk.inj (pure_ok.mp run)
      exact ⟨rfl, rfl⟩

theorem valueType_ok {identifier : Identifier} {type : BasicType}
    (run : valueType context identifier state = .ok (type, last)) :
    BasicType.ofName? identifier.name = some type ∧ type ≠ .void ∧ last = state := by
  obtain ⟨found, middle, named, rest⟩ := bind_ok.mp run
  obtain ⟨isName, rfl⟩ := resultType_ok named
  obtain ⟨notVoid, finished⟩ := guard_ok.mp rest
  obtain ⟨rfl, rfl⟩ := Prod.mk.inj (pure_ok.mp finished)
  exact ⟨isName, by simpa using notVoid, rfl⟩

theorem lowerInitial_ok {name : Bytes} {declared : Option BasicType} {expression : Expr}
    {value : Value}
    (run : lowerInitial context name declared expression state = .ok (value, last)) :
    lowerExpr context expression state = .ok (value, last) ∧ value.type ≠ .void ∧
      ∀ type, declared = some type → value.type = type := by
  obtain ⟨lowered, middle, ran, rest⟩ := bind_ok.mp run
  obtain ⟨notVoid, rest⟩ := guard_ok.mp rest
  cases declared with
  | none =>
      obtain ⟨rfl, rfl⟩ := Prod.mk.inj (pure_ok.mp rest)
      exact ⟨ran, by simpa using notVoid, by simp⟩
  | some type =>
      obtain ⟨assignable, finished⟩ := guard_ok.mp rest
      obtain ⟨rfl, rfl⟩ := Prod.mk.inj (pure_ok.mp finished)
      simp only [Bool.not_eq_true', Bool.not_eq_false, assignable_iff] at assignable
      refine ⟨ran, assignable.2.1, ?_⟩
      rintro _ ⟨⟩
      exact assignable.1

/-- The symbol of a variable before its declaration. -/
def variableSymbol (identifier : Identifier) (type : BasicType) : Symbol :=
  { name := identifier.name, kind := .variable, type := some (.basic type),
    position := identifier.first }

theorem ofName?_ne_invalid {name : Bytes} {type : BasicType}
    (named : BasicType.ofName? name = some type) : type ≠ .invalid := by
  rintro rfl
  have listed := List.mem_of_find?_eq_some named
  simp at listed

theorem zeroOf_type (state : State) {type : BasicType} (notVoid : type ≠ .void)
    (valid : type ≠ .invalid) : (zeroOf state type).type = type := by
  cases type with
  | void => exact absurd rfl notVoid
  | invalid => exact absurd rfl valid
  | int | float | bool | string => rfl

/-- What a variable begins with: the value of an expression or the zero of its type. -/
inductive Begins (context : Context) (state : State) (declaration : VarDecl) (value : Value) :
    State → Prop where
  /-- The value is given. -/
  | given {expression : Expr} {after : State} (initial : declaration.initial = some expression)
      (run : lowerExpr context expression state = .ok (value, after))
      (notVoid : value.type ≠ .void) :
      Begins context state declaration value after
  /-- The type is given. -/
  | zero {identifier : Identifier} {type : BasicType} (initial : declaration.initial = none)
      (annotated : declaration.type = some identifier)
      (named : BasicType.ofName? identifier.name = some type) (notVoid : type ≠ .void)
      (isZero : value = zeroOf state type) :
      Begins context state declaration value (state.addZero type)

theorem lowerVariable_ok {declaration : VarDecl}
    (run : lowerVariable context declaration state = .ok ((), last)) :
    ∃ value middle symbol table, Begins context state declaration value middle ∧
      middle.table.declare context (variableSymbol declaration.name value.type) =
        .ok (symbol, table) ∧
      last = (middle.withTable table).hold symbol value.type value := by
  obtain ⟨declared, first, typed, rest⟩ := bind_ok.mp run
  have typing : first = state ∧ ∀ type, declared = some type →
      ∃ identifier, declaration.type = some identifier ∧
        BasicType.ofName? identifier.name = some type ∧ type ≠ .void := by
    cases written : declaration.type with
    | none =>
        rw [written] at typed
        obtain ⟨rfl, rfl⟩ := Prod.mk.inj (pure_ok.mp typed)
        simp
    | some identifier =>
        rw [written] at typed
        obtain ⟨type, middle, valued, finished⟩ := map_ok.mp typed
        obtain ⟨rfl, rfl⟩ := Prod.mk.inj finished
        obtain ⟨isName, notVoid, rfl⟩ := valueType_ok valued
        refine ⟨rfl, ?_⟩
        rintro _ ⟨⟩
        exact ⟨identifier, rfl, isName, notVoid⟩
  obtain ⟨rfl, typing⟩ := typing
  obtain ⟨initial, middle, initialised, remainder⟩ := bind_ok.mp rest
  cases start : declaration.initial with
  | some expression =>
      rw [start] at initialised
      obtain ⟨value, after, lowered, finished⟩ := map_ok.mp initialised
      obtain ⟨rfl, rfl⟩ := Prod.mk.inj finished
      obtain ⟨ran, notVoid, agreement⟩ := lowerInitial_ok lowered
      have chosen : declared.or ((some value).map Value.type) = some value.type := by
        cases declared with
        | none => rfl
        | some type => rw [agreement type rfl]; rfl
      simp only [chosen, bind_ok, onTable_ok, initialValue, pure_ok, holdValue_ok, Prod.mk.injEq,
        and_assoc, exists_eq_left, exists_and_left, true_and] at remainder
      obtain ⟨-, symbol, _, ⟨table, declares, rfl⟩, rfl⟩ := remainder
      exact ⟨value, middle, symbol, table, .given start ran notVoid, declares, rfl⟩
  | none =>
      rw [start] at initialised
      obtain ⟨rfl, rfl⟩ := Prod.mk.inj (pure_ok.mp initialised)
      cases declared with
      | none => exact absurd remainder refuse_ok
      | some type =>
          obtain ⟨identifier, annotated, isName, notVoid⟩ := typing type rfl
          have chosen : (some type).or (Option.map Value.type none) = some type := rfl
          simp only [chosen, bind_ok, onTable_ok, initialValue, zeroValue_ok, holdValue_ok,
            Prod.mk.injEq, and_assoc, exists_eq_left, exists_and_left, true_and] at remainder
          obtain ⟨-, symbol, _, ⟨table, declares, rfl⟩, rfl⟩ := remainder
          have zeroed := zeroOf_type middle notVoid (ofName?_ne_invalid isName)
          refine ⟨_, _, symbol, table, .zero start annotated isName notVoid rfl, ?_, ?_⟩
          · rw [zeroed]
            cases type <;> exact declares
          · rw [zeroed]
            cases type <;> rfl

theorem lowerCondition_ok {owner : Bytes} {expression : Expr} {value : Value}
    (run : lowerCondition context owner expression state = .ok (value, last)) :
    lowerExpr context expression state = .ok (value, last) ∧ value.type = .bool := by
  obtain ⟨lowered, middle, ran, rest⟩ := bind_ok.mp run
  obtain ⟨truth, finished⟩ := guard_ok.mp rest
  obtain ⟨rfl, rfl⟩ := Prod.mk.inj (pure_ok.mp finished)
  exact ⟨ran, by simpa using truth⟩

theorem lowerReturn_ok {first : Position} {value : Option Expr}
    (run : lowerReturn context first value state = .ok ((), last)) :
    (value = none ∧ state.function.result = .void ∧ last = state.emit (.ret none)) ∨
      (∃ expression lowered middle, value = some expression ∧
        lowerExpr context expression state = .ok (lowered, middle) ∧
        lowered.type = middle.function.result ∧ middle.function.result ≠ .void ∧
        lowered.type ≠ .invalid ∧ last = middle.emit (.ret (some lowered))) := by
  cases value with
  | none =>
      left
      simp only [lowerReturn, bind_ok, get_ok, Prod.mk.injEq, and_assoc, exists_eq_left,
        exists_and_left] at run
      obtain ⟨void, finished⟩ := guard_ok.mp run
      exact ⟨rfl, by simpa using void, (Prod.mk.inj (emit_ok.mp finished)).2⟩
  | some expression =>
      right
      obtain ⟨lowered, middle, ran, rest⟩ := bind_ok.mp run
      simp only [bind_ok, get_ok, Prod.mk.injEq, and_assoc, exists_eq_left, exists_and_left] at rest
      obtain ⟨notVoid, rest⟩ := guard_ok.mp rest
      obtain ⟨assignable, finished⟩ := guard_ok.mp rest
      simp only [Bool.not_eq_true', Bool.not_eq_false, assignable_iff] at assignable
      exact ⟨expression, lowered, middle, rfl, ran, assignable.1, by simpa using notVoid,
        assignable.2.2, (Prod.mk.inj (emit_ok.mp finished)).2⟩

theorem inScope_ok {kind : ScopeKind} {label : Bytes} {body : Context → Build Unit}
    {result : Unit × State} :
    inScope context kind label body state = .ok result ↔ context < state.nextContext ∧
      body state.nextContext (state.openScope context kind label) = .ok result := by
  simp only [inScope, bind_ok, openScope_ok, Prod.mk.injEq, and_assoc, exists_eq_left,
    exists_and_left]

theorem openBlock_bind_ok {α : Type} {next : Unit → Build α} {result : α × State} :
    (openBlock >>= next) state = .ok result ↔ next () state.opened = .ok result := by
  simp only [bind_ok, openBlock_ok, Prod.mk.injEq, true_and, exists_eq_left]
  exact ⟨fun ⟨_, run⟩ => run, fun run => ⟨(), run⟩⟩

theorem lowerWhen_ok {condition : Value} {consequent : Build Unit}
    (run : lowerWhen condition consequent state = .ok ((), last)) :
    ∃ (thenBlock endBlock : BlockName) (made middle : State),
      thenBlock = state.blockName "if.then" ∧
      endBlock = (state.addBlock "if.then").blockName "if.end" ∧
      made = (state.addBlock "if.then").addBlock "if.end" ∧
      consequent ((made.branch condition thenBlock endBlock).enter thenBlock) = .ok ((), middle) ∧
      last = (middle.jumpIfOpen endBlock).enter endBlock := by
  simp only [lowerWhen, bind_ok, newBlock_ok, branch_ok, enter_ok, jumpIfOpen_ok, Prod.mk.injEq,
    and_assoc, exists_eq_left, exists_and_left, true_and, exists_const] at run
  obtain ⟨_, middle, ran, rfl⟩ := run
  exact ⟨_, _, _, middle, rfl, rfl, rfl, ran, rfl⟩

theorem lowerChoice_ok {condition : Value} {consequent alternative : Build Unit}
    (run : lowerChoice condition consequent alternative state = .ok ((), last)) :
    ∃ (thenBlock elseBlock endBlock : BlockName) (made middle after : State),
      thenBlock = state.blockName "if.then" ∧
      elseBlock = (state.addBlock "if.then").blockName "if.else" ∧
      endBlock = ((state.addBlock "if.then").addBlock "if.else").blockName "if.end" ∧
      made = ((state.addBlock "if.then").addBlock "if.else").addBlock "if.end" ∧
      consequent ((made.branch condition thenBlock elseBlock).enter thenBlock) = .ok ((), middle) ∧
      alternative ((middle.jumpIfOpen endBlock).enter elseBlock) = .ok ((), after) ∧
      last = (after.jumpIfOpen endBlock).enter endBlock := by
  simp only [lowerChoice, bind_ok, newBlock_ok, branch_ok, enter_ok, jumpIfOpen_ok, Prod.mk.injEq,
    and_assoc, exists_eq_left, exists_and_left, true_and, exists_const] at run
  obtain ⟨_, middle, ran, _, after, followed, rfl⟩ := run
  exact ⟨_, _, _, _, middle, after, rfl, rfl, rfl, rfl, ran, followed, rfl⟩

/-- What stands behind `else`. -/
def lowerAlternative (context : Context) (loop : Option LoopTargets) : Stmt → Build Unit
  | .block _ body _ => inScope context .block "if.else" fun inner => lowerStmts inner loop body
  | statement => lowerStmt context loop statement

theorem lowerStmt_when_ok {loop : Option LoopTargets} {first : Position} {brace ending : Token}
    {condition : Expr} {consequent : List Stmt} {result : Unit × State}
    (run : lowerStmt context loop
      (.conditional first condition brace consequent ending none) state =
      .ok result) :
    ∃ value middle, lowerExpr context condition state.opened = .ok (value, middle) ∧
      value.type = .bool ∧
      lowerWhen value
        (inScope context .block "if.then" fun inner => lowerStmts inner loop consequent) middle =
        .ok result := by
  rw [lowerStmt, openBlock_bind_ok] at run
  obtain ⟨value, middle, tested, run⟩ := bind_ok.mp run
  obtain ⟨valueRun, truth⟩ := lowerCondition_ok tested
  exact ⟨value, middle, valueRun, truth, run⟩

theorem lowerStmt_choice {loop : Option LoopTargets} {first : Position} {brace ending : Token}
    {condition : Expr} {consequent : List Stmt} {alternative : Stmt} :
    lowerStmt context loop
      (.conditional first condition brace consequent ending (some alternative)) =
      openBlock >>= fun _ => lowerCondition context "if" condition >>= fun value =>
        lowerChoice value
          (inScope context .block "if.then" fun inner => lowerStmts inner loop consequent)
          (lowerAlternative context loop alternative) := by
  cases alternative <;> rw [lowerStmt] <;> rfl

theorem lowerStmt_choice_ok {loop : Option LoopTargets} {first : Position} {brace ending : Token}
    {condition : Expr} {consequent : List Stmt} {alternative : Stmt} {result : Unit × State}
    (run : lowerStmt context loop
      (.conditional first condition brace consequent ending (some alternative)) state =
        .ok result) :
    ∃ value middle, lowerExpr context condition state.opened = .ok (value, middle) ∧
      value.type = .bool ∧
      lowerChoice value
        (inScope context .block "if.then" fun inner => lowerStmts inner loop consequent)
        (lowerAlternative context loop alternative) middle = .ok result := by
  rw [lowerStmt_choice, openBlock_bind_ok] at run
  obtain ⟨value, middle, tested, run⟩ := bind_ok.mp run
  obtain ⟨valueRun, truth⟩ := lowerCondition_ok tested
  exact ⟨value, middle, valueRun, truth, run⟩

theorem lowerTest_ok {scope : Context} {bodyBlock endBlock : BlockName} {condition : Option Expr}
    (run : lowerTest scope bodyBlock endBlock condition state = .ok ((), last)) :
    (condition = none ∧ last = state.jump bodyBlock) ∨
      (∃ expression value middle, condition = some expression ∧
        lowerExpr scope expression state = .ok (value, middle) ∧ value.type = .bool ∧
        last = middle.branch value bodyBlock endBlock) := by
  cases condition with
  | none => exact .inl ⟨rfl, (Prod.mk.inj (jump_ok.mp run)).2⟩
  | some expression =>
      obtain ⟨value, middle, tested, rest⟩ := bind_ok.mp run
      obtain ⟨ran, truth⟩ := lowerCondition_ok tested
      exact .inr ⟨expression, value, middle, rfl, ran, truth, (Prod.mk.inj (branch_ok.mp rest)).2⟩

theorem lowerAdvance_ok {scope : Context} {postBlock condBlock : BlockName} {advance : Option Expr}
    (run : lowerAdvance scope postBlock condBlock advance state = .ok ((), last)) :
    (advance = none ∧ last = state) ∨
      (∃ expression value middle, advance = some expression ∧
        lowerExpr scope expression (state.enter postBlock) = .ok (value, middle) ∧
        last = middle.jump condBlock) := by
  cases advance with
  | none => exact .inl ⟨rfl, (Prod.mk.inj (pure_ok.mp run)).2⟩
  | some expression =>
      simp only [lowerAdvance, bind_ok, enter_ok, jump_ok, Prod.mk.injEq, exists_eq_left, true_and,
        exists_const] at run
      obtain ⟨value, middle, ran, rfl⟩ := run
      exact .inr ⟨expression, value, middle, rfl, ran, rfl⟩

namespace State

/-- The block that begins a round of a loop. -/
def condName (state : State) : BlockName := state.blockName "loop.cond"

/-- The block of the body of a loop. -/
def bodyName (state : State) : BlockName := (state.addBlock "loop.cond").blockName "loop.body"

/-- The state with the first blocks of a loop and a block for what leads to the next round, if
anything does. -/
def addPost (state : State) (advance : Option Expr) : State :=
  if advance.isSome then ((state.addBlock "loop.cond").addBlock "loop.body").addBlock "loop.post"
  else (state.addBlock "loop.cond").addBlock "loop.body"

/-- The block that leads to the next round of a loop. -/
def nextName (state : State) (advance : Option Expr) : BlockName :=
  if advance.isSome then ((state.addBlock "loop.cond").addBlock "loop.body").blockName "loop.post"
  else state.condName

/-- The block behind a loop. -/
def doneName (state : State) (advance : Option Expr) : BlockName :=
  (state.addPost advance).blockName "loop.end"

/-- The state in which a loop begins, with all its blocks. -/
def header (state : State) (advance : Option Expr) : State :=
  (((state.addPost advance).addBlock "loop.end").jump state.condName).enter state.condName

end State

theorem lowerRounds_ok {scope : Context} {condition advance : Option Expr}
    {body : LoopTargets → Build Unit}
    (run : lowerRounds scope condition advance body state = .ok ((), last)) :
    ∃ tested middle after,
      lowerTest scope state.bodyName (state.doneName advance) condition (state.header advance) =
        .ok ((), tested) ∧
      body ⟨state.doneName advance, state.nextName advance⟩ (tested.enter state.bodyName) =
        .ok ((), middle) ∧
      lowerAdvance scope (state.nextName advance) state.condName advance
        (middle.jumpIfOpen (state.nextName advance)) = .ok ((), after) ∧
      last = after.enter (state.doneName advance) := by
  cases advance with
  | none =>
      simp only [lowerRounds, Option.mapM_none, bind_ok, newBlock_ok, pure_ok, jump_ok, enter_ok,
        jumpIfOpen_ok, Option.getD_none, Prod.mk.injEq, and_assoc, exists_eq_left, exists_and_left,
        true_and, exists_const] at run
      obtain ⟨_, tested, test, _, middle, ran, _, after, advanced, rfl⟩ := run
      exact ⟨tested, middle, after, test, ran, advanced, rfl⟩
  | some expression =>
      simp only [lowerRounds, Option.mapM_some, bind_ok, map_ok, newBlock_ok, jump_ok, enter_ok,
        jumpIfOpen_ok, Option.getD_some, Prod.mk.injEq, and_assoc, exists_eq_left, exists_and_left,
        true_and, exists_const] at run
      obtain ⟨_, tested, test, _, middle, ran, _, after, advanced, rfl⟩ := run
      exact ⟨tested, middle, after, test, ran, advanced, rfl⟩

theorem lowerStmt_loop_ok {loop : Option LoopTargets} {keyword brace ending : Token}
    {start : Option LoopStart} {condition advance : Option Expr} {body : List Stmt}
    (run : lowerStmt context loop (.loop keyword start condition advance brace body ending) state =
      .ok ((), last)) :
    ∃ middle, start.forM (lowerStart state.opened.nextContext)
        (state.opened.openScope context .loop "loop") = .ok ((), middle) ∧
      lowerRounds state.opened.nextContext condition advance
        (fun targets => inScope state.opened.nextContext .block "loop.body" fun inner =>
          lowerStmts inner (some targets) body) middle = .ok ((), last) := by
  rw [lowerStmt, openBlock_bind_ok, inScope_ok] at run
  obtain ⟨_, middle, startRun, run⟩ := bind_ok.mp run.2
  exact ⟨middle, startRun, run⟩

end Statements

end ScriptCompiler.Lowering
