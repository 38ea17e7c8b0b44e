import ScriptCompiler.Proofs.Preservation.Variables

/-!
# Instructions at a point of a function

What the instructions that lowering puts into a block do to a frame, and the operators of the source
beside the operations that stand for them.
-/

namespace ScriptCompiler.Lowering

open IR Semantics Bounded

section Operators

variable {Double : Type} (machine : Machine Double)

/-- An operator computes what its operation computes. -/
theorem operate_eq {type : BasicType} {operator : TokenKind} {opcode : BinaryOpcode}
    (found : binaryOpcode? type operator = some opcode) {left right : Datum Double}
    (leftType : left.type = type) (rightType : right.type = type) :
    operate machine operator left right = opcode.compute machine left right := by
  subst leftType
  unfold binaryOpcode? at found
  split at found <;> cases found
  all_goals
    cases left <;> simp only [Datum.type, reduceCtorEq] at *
    cases right <;> simp only [reduceCtorEq] at rightType
    rfl

theorem operateAlone_eq {type : BasicType} {operator : TokenKind} {opcode : UnaryOpcode}
    (found : unaryOpcode? type operator = some opcode) {operand : Datum Double}
    (operandType : operand.type = type) :
    operateAlone machine operator operand = opcode.compute machine operand := by
  subst operandType
  unfold unaryOpcode? at found
  split at found <;> cases found
  all_goals
    cases operand <;> simp only [Datum.type, reduceCtorEq] at *
    rfl

theorem unaryOpcode?_typed {type : BasicType} {operator : TokenKind} {opcode : UnaryOpcode}
    (found : unaryOpcode? type operator = some opcode) {operand : Datum Double}
    (operandType : operand.type = type) :
    ∃ datum, opcode.compute machine operand = .value datum ∧ datum.type = type :=
  opcode.compute_typed machine operandType (unaryOpcode?_result found).2

theorem printFormat?_type (datum : Datum Double) :
    printFormat? datum.type = some (formatOf datum) := by
  cases datum <;> rfl

theorem compoundArithmetic_eq (operator : TokenKind) :
    compoundArithmetic operator = compoundOperator? operator := by
  cases operator <;> rfl

theorem logicalName_fst (operator : Token) :
    (logicalName operator).1 = (operator.kind == .bothAnd) := by
  unfold logicalName
  split <;> simp_all

end Operators

theorem Draft.Usable.lt {signature? : Bytes → Option Signature} {draft : Draft} {value : Value}
    (usable : draft.Usable signature? value) (sound : draft.Sound signature?) {temp : Temp}
    (isTemp : value = .temp temp) : temp.id < draft.state.nextId := by
  subst isTemp
  exact (sound.results_range _ usable.typed.2.1 temp.id rfl).2

section Slots

variable {Double : Type} {machine : Machine Double} {strings : List Bytes} (frame : Frame Double)
  (place : Place) (datum : Datum Double) (value : Value)

@[simp]
theorem datum?_make :
    value.datum? machine strings (frame.make place) = value.datum? machine strings frame := by
  cases value <;> rfl

@[simp]
theorem datum?_fill :
    value.datum? machine strings (frame.fill place datum) = value.datum? machine strings frame := by
  cases value <;> rfl

theorem slots_fill_self : (frame.fill place datum).slots place.id = some (some datum) :=
  Function.update_self _ _ _

variable {place} in
theorem slots_fill_of_ne {id : Nat} (differ : id ≠ place.id) :
    (frame.fill place datum).slots id = frame.slots id := Function.update_of_ne differ _ _

variable {place} in
theorem slots_make_of_ne {id : Nat} (differ : id ≠ place.id) :
    (frame.make place).slots id = frame.slots id := Function.update_of_ne differ _ _

end Slots

namespace Simulation

variable {Double : Type} (sim : Simulation Double) {state last : State} {frame next : Frame Double}
  {trace : Trace Double} {instr : Instr} {value : Value} {datum : Datum Double} {place : Place}

/-- A value that can be read in a frame is what the source has computed. -/
def Reads (frame : Frame Double) (value : Value) (computed : Option (Datum Double)) : Prop :=
  value.type ≠ .void → ∃ datum, computed = some datum ∧
    value.datum? sim.machine sim.module.strings frame = some datum ∧ datum.type = value.type

/-- A value has been computed behind a state, and no slot has changed. -/
structure Gains (state : State) (frame next : Frame Double) (value : Value) (datum : Datum Double) :
    Prop where
  /-- What was there is kept. -/
  kept : frame.Kept state.nextId next
  /-- Slots stay as they are. -/
  slots : next.slots = frame.slots
  /-- The value can be read. -/
  found : value.datum? sim.machine sim.module.strings next = some datum
  /-- It has its type. -/
  typed : datum.type = value.type

theorem gains_define {dest : Temp} (isNext : dest.id = state.nextId)
    (typed : datum.type = dest.type) :
    sim.Gains state frame (frame.define dest datum) (.temp dest) datum where
  kept := .define frame datum isNext.ge
  slots := rfl
  found := Function.update_self _ _ _
  typed := typed

variable {sim} in
theorem Gains.reads (gains : sim.Gains state frame next value datum) :
    sim.Reads next value (some datum) :=
  fun _ => ⟨datum, rfl, gains.found, gains.typed⟩

variable {sim} in
theorem Gains.mirrors (gains : sim.Gains state frame next value datum) {layers : List Layer}
    {scopes : List (Scope Double)} (mirrors : frame.Mirrors layers scopes) :
    next.Mirrors layers scopes :=
  mirrors.congr fun id _ => congrFun gains.slots id

variable {sim} in
/-- What can be read stays readable while frames are kept. -/
theorem Reads.kept {computed : Option (Datum Double)} (reads : sim.Reads frame value computed)
    {draft : Draft} (sound : draft.Sound sim.signature?)
    (usable : value.type ≠ .void → draft.Usable sim.signature? value)
    (kept : frame.Kept draft.state.nextId next) : sim.Reads next value computed := by
  intro notVoid
  obtain ⟨datum, isDatum, found, typed⟩ := reads notVoid
  refine ⟨datum, isDatum, ?_, typed⟩
  rw [kept.datum?_eq fun temp isTemp => (usable notVoid).lt sound isTemp, found]

section Steps

variable (owned : (state.function.block? state.current.id).isSome)
include owned

theorem point_emit (straight : instr.targets = []) (grows : (state.emit instr).Grows sim.final)
    (action : instr.action sim.machine sim.module.strings frame = .proceed next) :
    sim.point state frame trace = sim.point (state.emit instr) next trace := by
  rw [State.emit_eq_put straight] at grows ⊢
  rw [sim.point_put owned grows, sim.running_proceed action, point]

theorem point_define (straight : instr.targets = []) (grows : (state.define instr).Grows sim.final)
    (action : instr.action sim.machine sim.module.strings frame = .proceed next) :
    sim.point state frame trace = sim.point (state.define instr) next trace := by
  rw [State.define_eq_put straight] at grows ⊢
  rw [sim.point_put owned grows, sim.running_proceed action, point]

theorem point_load (holds : frame.slots place.id = some (some datum))
    (grows : (state.load place).Grows sim.final) :
    sim.point state frame trace =
      sim.point (state.load place) (frame.define ⟨state.nextId, place.type⟩ datum) trace :=
  sim.point_define owned rfl grows
    (by simp only [Instr.action, Frame.content?, holds, Option.join_some])

theorem point_store (there : (frame.slots place.id).isSome)
    (found : value.datum? sim.machine sim.module.strings frame = some datum)
    (grows : (state.emit (.store (.slot place) value)).Grows sim.final) :
    sim.point state frame trace =
      sim.point (state.emit (.store (.slot place) value)) (frame.fill place datum) trace := by
  obtain ⟨content, isContent⟩ := Option.isSome_iff_exists.mp there
  exact sim.point_emit owned rfl grows (by simp only [Instr.action, isContent, found])

/-- A new slot is made and filled. -/
theorem point_keep (found : value.datum? sim.machine sim.module.strings frame = some datum)
    (grows : (state.keep place value).Grows sim.final) :
    sim.point state frame trace =
      sim.point (state.keep place value) ((frame.make place).fill place datum) trace := by
  obtain ⟨content, made⟩ : ∃ content, (frame.make place).slots place.id = some content := by
    simp only [Frame.make, Function.update_self]
    cases frame.slots place.id <;> exact ⟨_, rfl⟩
  have current : (state.keep place value).current = state.current := rfl
  have makes : (Instr.alloca place).action sim.machine sim.module.strings frame =
      .proceed (frame.make place) := rfl
  have fills : (Instr.store (.slot place) value).action sim.machine sim.module.strings
      (frame.make place) = .proceed ((frame.make place).fill place datum) := by
    simp only [Instr.action, made, datum?_make, found]
  rw [point, sim.rest_of_code current (State.code_keep owned place value) grows, List.cons_append,
    sim.running_proceed makes, List.cons_append, sim.running_proceed fills, List.nil_append, point]

theorem point_jump {target : BlockName} (grows : (state.jump target).Grows sim.final) :
    sim.point state frame trace = sim.entering target.id frame trace := by
  have put : state.jump target = state.put (.jump target) 0 := rfl
  have action : (Instr.jump target).action sim.machine sim.module.strings frame = .goto target.id :=
    rfl
  rw [sim.point_put owned (put ▸ grows), sim.running_goto action]

theorem point_branch {condition : Value} {ifTrue ifFalse : BlockName} {flag : Bool}
    (found : condition.datum? sim.machine sim.module.strings frame = some (.bool flag))
    (grows : (state.branch condition ifTrue ifFalse).Grows sim.final) :
    sim.point state frame trace =
      sim.entering (if flag then ifTrue else ifFalse).id frame trace := by
  have put : state.branch condition ifTrue ifFalse =
    state.put (.branch condition ifTrue ifFalse) 0 := rfl
  rw [sim.point_put owned (put ▸ grows), sim.running_goto]
  cases flag <;> simp [Instr.action, found]

variable {α : Type} {depth blocks : Nat} {asked : α → Bounded Double → Prop} {context : Context}

/-- An operator with two operands that can be read. -/
theorem meets_binary {operator : TokenKind} {lexeme : Bytes} {position : Position}
    {left right : Value}
    (run : applyBinary context operator lexeme position left right state = .ok (value, last))
    (grows : last.Grows sim.final) {first second : Option (Datum Double)}
    (leftReads : sim.Reads frame left first) (rightReads : sim.Reads frame right second)
    {onward : Datum Double → Run Double α}
    (later : ∀ datum next, sim.Gains state frame next value datum →
      Meets depth blocks (onward datum) (sim.point last next trace) asked) :
    Meets depth blocks
      (present first fun first => present second fun second =>
        (operate sim.machine operator first second).run trace onward)
      (sim.point state frame trace) asked := by
  obtain ⟨types, opcode, found, dest, isDest, rfl, rfl⟩ := applyBinary_ok run
  obtain ⟨isValue, result⟩ := binaryOpcode?_result found
  obtain ⟨leftDatum, rfl, leftFound, leftType⟩ := leftReads isValue.1
  obtain ⟨rightDatum, rfl, rightFound, rightType⟩ := rightReads (types ▸ isValue.1)
  have action : (Instr.binary opcode dest left right).action sim.machine sim.module.strings frame =
      .ofComputed frame dest (opcode.compute sim.machine leftDatum rightDatum) := by
    simp only [Instr.action, leftFound, rightFound]
  simp only [present, operate_eq sim.machine found leftType (rightType.trans types.symm)]
  rcases opcode.compute_typed sim.machine leftType (rightType.trans types.symm) result with
    trap | ⟨datum, computed, typed⟩
  · rw [trap] at action ⊢
    rw [State.define_eq_put rfl] at grows
    refine Leads.of_eq ?_
    rw [sim.point_put owned grows, sim.running_trap action]
  · rw [computed] at action ⊢
    rw [sim.point_define owned rfl grows action]
    subst isDest
    exact later datum _ (sim.gains_define rfl typed)

/-- An operator with one operand that can be read. -/
theorem meets_unary {operator : Token} {operand : Value}
    (run : applyUnary context operator operand state = .ok (value, last))
    (grows : last.Grows sim.final) {computed : Option (Datum Double)}
    (reads : sim.Reads frame operand computed) {onward : Datum Double → Run Double α}
    (later : ∀ datum next, sim.Gains state frame next value datum →
      Meets depth blocks (onward datum) (sim.point last next trace) asked) :
    Meets depth blocks
      (present computed fun operand =>
        (operateAlone sim.machine operator.kind operand).run trace onward)
      (sim.point state frame trace) asked := by
  obtain ⟨opcode, found, dest, isDest, rfl, rfl⟩ := applyUnary_ok run
  obtain ⟨operandDatum, rfl, operandFound, operandType⟩ := reads (unaryOpcode?_result found).1.1
  obtain ⟨datum, result, typed⟩ := unaryOpcode?_typed sim.machine found operandType
  have action : (Instr.unary opcode dest operand).action sim.machine sim.module.strings frame =
      .proceed (frame.define dest datum) := by
    simp only [Instr.action, operandFound, result, Action.ofComputed]
  simp only [present, operateAlone_eq sim.machine found operandType, result]
  rw [sim.point_define owned rfl grows action]
  subst isDest
  exact later datum _ (sim.gains_define rfl typed)

end Steps

end Simulation

end ScriptCompiler.Lowering
