import ScriptCompiler.Proofs.LLVM.Numbering
import ScriptCompiler.Proofs.Optimize.Soundness
import ScriptCompiler.Proofs.Semantics.Assembly

/-!
# Code that mirrors instructions

An activation of the code of a function mirrors a frame of the function where the operands that
stand for values have these values.  The code of one instruction does what the instruction does and
keeps this (`Emits.follows`, `Emits.ends`), hence so does the code of a block (`EmitsAll.follows`).
-/

namespace ScriptCompiler.LLVM

open IR Lowering Semantics

variable {Double : Type}

/-! ### Values -/

/-- A value of a program in running code. -/
def Scalar.ofDatum : Datum Double → Scalar Double
  | .int value => .word value
  | .float value => .double value
  | .bool value => .bit (.ofBool value)
  | .string value => .text (value ++ [0])

/-- What is passed to the output function for a value: for a truth value, zero or one. -/
def Scalar.printed : Datum Double → Scalar Double
  | .bool value => .word (if value then 1#32 else 0#32)
  | datum => .ofDatum datum

/-- The arguments of the output function for an event. -/
def printedAs (event : Event Double) : List (Scalar Double) :=
  [.text (event.format ++ [0]), .printed event.argument]

/-- What a call comes to in running code. -/
def outcomeOf (result : Option (Datum Double) × Trace Double) : Outcome Double :=
  (result.1.map .ofDatum, result.2.map printedAs)

theorem Scalar.type_ofDatum (datum : Datum Double) :
    (Scalar.ofDatum datum).type = .ofBasic datum.type := by
  cases datum <;> rfl

section Operations

variable {machine : Machine Double} {opcode : BinaryOpcode} {first second result : Datum Double}

theorem Arithmetic.compute_eq {operation : Arithmetic}
    (isOperation : arithmetic? opcode = some operation)
    (computed : opcode.compute machine first second = .value result) :
    operation.compute machine (.ofDatum first) (.ofDatum second) = some (.ofDatum result) := by
  unfold BinaryOpcode.compute at computed
  split at computed
  -- The quotient and the remainder are there unless the operation traps.
  case h_4 | h_5 =>
    cases isOperation
    split at computed
    · cases computed
    · rename_i sound
      cases computed
      simp [Scalar.ofDatum, Arithmetic.compute, sound]
  all_goals cases computed <;> cases isOperation <;> rfl

theorem IntPredicate.compute_eq {predicate : IntPredicate}
    (isPredicate : intPredicate? opcode = some predicate)
    (computed : opcode.compute machine first second = .value result) :
    predicate.compute (.ofDatum first) (.ofDatum second) = some (.ofDatum result) := by
  unfold BinaryOpcode.compute at computed
  split at computed
  case h_4 | h_5 => cases isPredicate
  case h_23 left right | h_24 left right =>
    cases isPredicate
    cases computed
    cases left <;> cases right <;> rfl
  all_goals cases computed <;> cases isPredicate <;> rfl

theorem FloatPredicate.compute_eq {predicate : FloatPredicate}
    (isPredicate : floatPredicate? opcode = some predicate)
    (computed : opcode.compute machine first second = .value result) :
    predicate.compute machine (.ofDatum first) (.ofDatum second) = some (.ofDatum result) := by
  unfold BinaryOpcode.compute at computed
  split at computed
  case h_4 | h_5 => cases isPredicate
  all_goals cases computed <;> cases isPredicate <;> rfl

variable {generated : Module} {call : Routine Double} {image : Activation Double}
  {output : Output Double} {number : Nat} {type : LType} {inst : Inst}

theorem run_arithmetic {operation : Arithmetic} {left right : Operand}
    {one other made : Scalar Double} (isLeft : left.scalar? machine generated image = some one)
    (isRight : right.scalar? machine generated image = some other)
    (computed : operation.compute machine one other = some made) :
    (Inst.arithmetic number operation left right).run machine generated call image output =
      .done (image.define number made, output) := by
  simp [Inst.run, isLeft, isRight, computed, Activation.keep]

/-- What an operation on two values computes is what its code computes. -/
theorem BinaryInst.run_eq {left right : Operand}
    (made : BinaryInst number left right opcode type inst)
    (isFirst : left.scalar? machine generated image = some (.ofDatum first))
    (isSecond : right.scalar? machine generated image = some (.ofDatum second))
    (computed : opcode.compute machine first second = .value result) :
    inst.run machine generated call image output =
      .done (image.define number (.ofDatum result), output) := by
  cases made with
  | arithmetic isOperation =>
      exact run_arithmetic isFirst isSecond (Arithmetic.compute_eq isOperation computed)
  | icmp isPredicate _ =>
      simp [Inst.run, isFirst, isSecond, IntPredicate.compute_eq isPredicate computed,
        Activation.keep]
  | fcmp isPredicate _ =>
      simp [Inst.run, isFirst, isSecond, FloatPredicate.compute_eq isPredicate computed,
        Activation.keep]

/-- What an operation on one value computes is what its code computes. -/
theorem UnaryInst.run_eq {opcode : UnaryOpcode} {operand : Operand} {value : Datum Double}
    (made : UnaryInst number operand opcode type inst)
    (isValue : operand.scalar? machine generated image = some (.ofDatum value))
    (computed : opcode.compute machine value = .value result) :
    inst.run machine generated call image output =
      .done (image.define number (.ofDatum result), output) := by
  unfold UnaryOpcode.compute at computed
  split at computed
  · cases computed
    cases made
    refine run_arithmetic rfl isValue ?_
    simp [Scalar.ofDatum, Arithmetic.compute]
  · cases computed
    cases made
    simp [Inst.run, isValue, Scalar.ofDatum, Scalar.negated, Activation.keep]
  · rename_i flag
    cases computed
    cases made
    refine run_arithmetic isValue rfl ?_
    cases flag <;> rfl
  · cases computed

end Operations

/-! ### Activations that mirror frames -/

/-- An activation of code mirrors a frame of a function, by an assignment of operands to values. -/
structure Mirrors (machine : Machine Double) (generated : Module) (source : IR.Function)
    (stand : Nat → Option Operand) (frame : IR.Frame Double) (image : Activation Double) :
    Prop where
  /-- The arguments are the same. -/
  params : ∀ place ∈ source.params,
    image.arguments.lookup (paramName place) = frame.arguments[place.id]?.map .ofDatum
  /-- Operands that stand for results have their values. -/
  temps : ∀ id datum operand, frame.temps id = some datum → stand id = some operand →
    operand.scalar? machine generated image = some (.ofDatum datum)
  /-- All slots are made and hold the same. -/
  slots : ∀ place ∈ slots source, image.slots (slotName place) =
    some (.ofBasic place.type, (frame.content? place).map .ofDatum)

section Mirrors

variable {machine : Machine Double} {generated : Module} {source : IR.Function}
  {stand : Nat → Option Operand} {frame : IR.Frame Double} {image : Activation Double}

theorem Operand.scalar?_define (image : Activation Double) (number : Nat) (scalar : Scalar Double)
    {operand : Operand} (other : ∀ type, operand ≠ .result number type) :
    operand.scalar? machine generated (image.define number scalar) =
      operand.scalar? machine generated image := by
  cases operand with
  | result id type =>
      have differ : id ≠ number := fun same => other type (same ▸ rfl)
      exact Function.update_of_ne differ _ _
  | int | double | bool | text | param | slot => rfl

namespace Mirrors

/-- A result and the number that stands for it alone. -/
theorem define (mirrors : Mirrors machine generated source stand frame image) {dest : Temp}
    {number : Nat} {type : LType} (datum : Datum Double)
    (stands : stand dest.id = some (.result number type))
    (owner : ∀ id type, stand id = some (.result number type) → id = dest.id) :
    Mirrors machine generated source stand (frame.define dest datum)
      (image.define number (.ofDatum datum)) where
  params := mirrors.params
  temps := by
    intro id content operand there isOperand
    by_cases here : id = dest.id
    · subst here
      obtain rfl := Option.some.inj (stands.symm.trans isOperand)
      simp only [Frame.define, Function.update_self, Option.some.injEq] at there
      subst there
      simp [Operand.scalar?, Activation.define]
    · simp only [Frame.define, Function.update_of_ne here] at there
      rw [Operand.scalar?_define]
      · exact mirrors.temps id content operand there isOperand
      · rintro type rfl
        exact here (owner id type isOperand)
  slots := mirrors.slots

/-- A number that stands for no result. -/
theorem define_other (mirrors : Mirrors machine generated source stand frame image) {number : Nat}
    (scalar : Scalar Double) (unowned : ∀ id type, stand id ≠ some (.result number type)) :
    Mirrors machine generated source stand frame (image.define number scalar) where
  params := mirrors.params
  temps := by
    intro id content operand there isOperand
    rw [Operand.scalar?_define]
    · exact mirrors.temps id content operand there isOperand
    · rintro type rfl
      exact unowned id type isOperand
  slots := mirrors.slots

/-- A result that a constant operand stands for. -/
theorem assign (mirrors : Mirrors machine generated source stand frame image) {dest : Temp}
    {operand : Operand} {datum : Datum Double} (stands : stand dest.id = some operand)
    (same : operand.scalar? machine generated image = some (.ofDatum datum)) :
    Mirrors machine generated source stand (frame.define dest datum) image where
  params := mirrors.params
  temps := by
    intro id content other there isOther
    by_cases here : id = dest.id
    · subst here
      obtain rfl := Option.some.inj (stands.symm.trans isOther)
      simp only [Frame.define, Function.update_self, Option.some.injEq] at there
      exact there ▸ same
    · simp only [Frame.define, Function.update_of_ne here] at there
      exact mirrors.temps id content other there isOther
  slots := mirrors.slots

/-- A slot is there already when it is made. -/
theorem make (mirrors : Mirrors machine generated source stand frame image) (place : Place) :
    Mirrors machine generated source stand (frame.make place) image where
  params := mirrors.params
  temps := mirrors.temps
  slots := by
    intro other own
    rw [mirrors.slots other own]
    have same : (frame.make place).content? other = frame.content? other := by
      by_cases here : other.id = place.id
      · simp only [Frame.content?, Frame.make, here, Function.update_self]
        cases frame.slots place.id <;> rfl
      · simp only [Frame.content?, Frame.make, Function.update_of_ne here]
    rw [same]

/-- A new content of a slot. -/
theorem fill (mirrors : Mirrors machine generated source stand frame image)
    (once : ((LLVM.slots source).map Place.id).Nodup) {place : Place}
    (own : place ∈ LLVM.slots source) (datum : Datum Double) :
    Mirrors machine generated source stand (frame.fill place datum)
      (image.put (slotName place) (.ofBasic place.type) (some (.ofDatum datum))) where
  params := mirrors.params
  temps := by
    intro id content operand there isOperand
    have same := mirrors.temps id content operand there isOperand
    cases operand <;> exact same
  slots := by
    intro other within
    by_cases here : other.id = place.id
    · obtain rfl : other = place := List.inj_on_of_nodup_map once within own here
      simp [Activation.put, Frame.content?, Frame.fill]
    · have differ : slotName other ≠ slotName place := fun same => here (slotName_inj same)
      simp only [Activation.put, Function.update_of_ne differ, Frame.content?, Frame.fill,
        Function.update_of_ne here]
      exact mirrors.slots other within

/-- What a call returns, where a number stands for the value alone. -/
theorem receive (mirrors : Mirrors machine generated source stand frame image) {dest : Option Temp}
    {number : Option Nat} {value : Option (Datum Double)} {next : IR.Frame Double}
    (received : frame.receive dest value = some next) (numbered : number.isSome ↔ value.isSome)
    (stands : ∀ temp ∈ dest, ∀ id ∈ number, ∃ type, stand temp.id = some (.result id type))
    (owner : ∀ taken ∈ number, ∀ id type, stand id = some (.result taken type) →
      ∃ temp ∈ dest, temp.id = id) :
    ∃ after, image.receive number (value.map .ofDatum) = some after ∧
      Mirrors machine generated source stand next after := by
  cases value with
  | none =>
      cases number with
      | some id => simp at numbered
      | none =>
          cases dest with
          | some temp => cases received
          | none =>
              cases received
              exact ⟨image, rfl, mirrors⟩
  | some datum =>
      cases number with
      | none => simp at numbered
      | some taken =>
          refine ⟨image.define taken (.ofDatum datum), rfl, ?_⟩
          cases dest with
          | none =>
              cases received
              refine mirrors.define_other _ fun id type isId => ?_
              obtain ⟨temp, none_, -⟩ := owner taken rfl id type isId
              cases none_
          | some temp =>
              cases received
              obtain ⟨type, isTemp⟩ := stands temp rfl taken rfl
              refine mirrors.define datum isTemp fun id type isId => ?_
              obtain ⟨other, same, rfl⟩ := owner taken rfl id type isId
              cases same
              rfl

end Mirrors

end Mirrors

/-! ### Instructions -/

/-- What the code of a module finds outside of its functions. -/
structure Resolves (module : IR.Module) (wraps : Bool) (generated : Module) : Prop where
  /-- The string constants are there, with a zero behind each. -/
  texts : ∀ index content, module.strings[index]? = some content →
    (generated.texts.find? fun constant => constant.name == stringName index &&
      constant.content.length == content.length + 1) = some ⟨stringName index, content ++ [0]⟩
  /-- Defined functions are not declared. -/
  functions : ∀ function ∈ module.functions, (generated.declarations.any fun declaration =>
    declaration.name == Surroundings.symbol wraps function.name) = false
  /-- Only the output function is external, and it is declared. -/
  externals : ∀ external ∈ module.externals, external = formatter ∧
    (generated.declarations.any fun declaration => declaration.name == external.name) = true

/-- Calls of functions of a module with arguments of the right types go like calls of their code. -/
def CallsAlike (module : IR.Module) (wraps : Bool) (call : Call Double) (call' : Routine Double) :
    Prop :=
  ∀ name function, module.function? name = some function →
    ∀ data : List (Datum Double), data.map Datum.type = function.params.map Place.type →
      ∀ trace, Run.Upto outcomeOf (call name data trace)
        (call' (Surroundings.symbol wraps function.name) (data.map .ofDatum) (trace.map printedAs))

section Steps

variable {machine : Machine Double} {module : IR.Module} {wraps : Bool} {generated : Module}
  {source : IR.Function} {stand : Nat → Option Operand} {frame : IR.Frame Double}
  {image : Activation Double} {earlier later : List Instr} {instr : Instr} {locals last : Locals}
  {insts : List Inst} {terminator : Option Terminator}

/-- The address of a slot is that of its code. -/
theorem Position.address_eq (position : Position source earlier locals) (grounded : source.Grounded)
    (split : source.instrs = earlier ++ instr :: later) {place : Place}
    (read : .slot place ∈ instr.operands) {operand : Operand}
    (found : Surroundings.operand? ⟨module, wraps, source⟩ locals.operands (.slot place) =
      some operand) :
    operand = .slot (slotName place) (.ofBasic place.type) ∧ place ∈ slots source := by
  obtain ⟨other, there, spelt⟩ :=
    position.stands _ (mem_standing grounded split read rfl) place.id rfl
  obtain rfl := Option.some.inj (found.symm.trans there)
  refine ⟨spelt, ?_⟩
  obtain ⟨definition, before, isResult⟩ := grounded.ordered _ _ _ split _ read rfl
  rcases result?_cases isResult with ⟨dest, same⟩ | ⟨other, same, rfl⟩
  · cases same
  · cases same
    rw [slot_mem_slots_iff, split]
    exact List.mem_append_left _ before

section Operands

variable (resolves : Resolves module wraps generated) (grounded : source.Grounded)
  (split : source.instrs = earlier ++ instr :: later) (position : Position source earlier locals)
  (placed : Placed stand locals) (mirrors : Mirrors machine generated source stand frame image)
include resolves grounded split position placed mirrors

/-- The operand that stands for a value has its value. -/
theorem Mirrors.scalar?_eq {value : Value} (read : value ∈ instr.operands) {operand : Operand}
    (found : Surroundings.operand? ⟨module, wraps, source⟩ locals.operands value = some operand)
    {datum : Datum Double} (isDatum : value.datum? machine module.strings frame = some datum) :
    operand.scalar? machine generated image = some (.ofDatum datum) := by
  cases value with
  | constant content => cases content <;> cases found <;> cases isDatum <;> rfl
  | param place =>
      obtain ⟨other, there, spelt⟩ :=
        position.stands _ (mem_standing grounded split read rfl) place.id rfl
      obtain rfl := Option.some.inj (found.symm.trans there)
      have own := grounded.params_own instr (by simp [split]) place read
      rw [show operand = _ from spelt, Operand.scalar?, mirrors.params place own]
      exact congrArg (Option.map Scalar.ofDatum) isDatum
  | slot place => cases isDatum
  | temp result => exact mirrors.temps result.id datum operand isDatum (placed.lasts _ _ found)
  | string index =>
      obtain ⟨content, there, rfl⟩ := Option.map_eq_some_iff.mp found
      obtain ⟨same, isSame, rfl⟩ := Option.map_eq_some_iff.mp isDatum
      obtain rfl := Option.some.inj (there.symm.trans isSame)
      rw [Operand.scalar?, resolves.texts index content there]
      rfl
  | stray name => cases found

theorem Mirrors.scalars_eq {values : List Value} (read : values ⊆ instr.operands)
    {passed : List Operand}
    (each : List.Forall₂ (fun value operand =>
      Surroundings.operand? ⟨module, wraps, source⟩ locals.operands value = some operand)
        values passed)
    {data : List (Datum Double)}
    (found : values.mapM (Value.datum? machine module.strings frame) = some data) :
    passed.mapM (Operand.scalar? machine generated image) = some (data.map .ofDatum) := by
  induction each generalizing data with
  | nil =>
      cases found
      rfl
  | @cons value operand values passed first _ ih =>
      simp only [List.mapM_cons, Option.bind_eq_bind, Option.pure_def, Option.bind_eq_some_iff,
        Option.some.injEq] at found
      obtain ⟨datum, isDatum, others, isOthers, rfl⟩ := found
      have head := mirrors.scalar?_eq resolves grounded split position placed
        (read List.mem_cons_self) first isDatum
      have tail := ih (fun value member => read (List.mem_cons_of_mem _ member)) isOthers
      simp [List.mapM_cons, head, tail]

end Operands

/-- A call has a value exactly if its function has a result. -/
theorem isSome_of_returned {result : BasicType} {value : Option (Datum Double)}
    (returned : Returned result value) : value.isSome ↔ LType.ofBasic result ≠ .void := by
  cases value with
  | none =>
      rw [show result = .void from returned]
      simp [LType.ofBasic]
  | some datum =>
      rw [← show datum.type = result from returned]
      cases datum <;> simp [Datum.type, LType.ofBasic]

theorem Scalar.printed_eq {datum : Datum Double} (other : datum.type ≠ .bool) :
    Scalar.printed datum = .ofDatum datum := by
  cases datum with
  | bool => exact absurd rfl other
  | int | float | string => rfl

theorem Scalar.widened_ofDatum {datum : Datum Double} (isBool : datum.type = .bool) :
    (Scalar.ofDatum datum).widened (.int 32) = some (.printed datum) := by
  cases datum with
  | bool flag => cases flag <;> rfl
  | int | float | string => cases isBool

section Follows

variable (resolves : Resolves module wraps generated) (grounded : source.Grounded)
  (sound : source.Sound module.interface) (split : source.instrs = earlier ++ instr :: later)
  (position : Position source earlier locals) {call : Call Double} {call' : Routine Double}
  {held : Set Supply} (suits : frame.Suits source held)
  (demands : ∀ supply ∈ instr.demands, supply ∈ held)
  (mirrors : Mirrors machine generated source stand frame image)
  {rest : List Instr} {goto : Onward Double}
  {onward : Activation Double × Output Double → Run Double (Outcome Double)}
  (continues : ∀ next image trace, next.Suits source (supplied held [instr]) →
    Mirrors machine generated source stand next image →
    Run.Upto outcomeOf (runInstrs machine module.strings call goto rest next trace)
      (onward (image, trace.map printedAs)))
  (trace : Trace Double)
include resolves grounded sound split position suits demands mirrors continues

omit resolves grounded position mirrors in
/-- An instruction with which the frame goes on is mirrored by code with which the activation
does. -/
theorem follows_proceed {next : IR.Frame Double} {image' : Activation Double}
    (same : Mirrors machine generated source stand next image')
    (acts : instr.action machine module.strings frame = .proceed next)
    (runs : runInsts machine generated call' insts image (trace.map printedAs) =
      .done (image', trace.map printedAs)) :
    Run.Upto outcomeOf
      (runInstrs machine module.strings call goto (instr :: rest) frame trace)
      ((runInsts machine generated call' insts image (trace.map printedAs)).bind onward) := by
  have member : instr ∈ source.instrs := by simp [split]
  have supplied := Instr.action_sound machine sound rfl suits member demands
  rw [acts] at supplied
  rw [runInstrs, acts, runs]
  exact continues next image' trace supplied same

omit resolves in
/-- The code of a load does what the load does. -/
theorem follows_load {dest : Temp} {address : Value} {operand : Operand}
    (isLoad : instr = .load dest address)
    (found : Surroundings.operand? ⟨module, wraps, source⟩ locals.operands address = some operand)
    (stands : stand dest.id = some (.result locals.next (.ofBasic dest.type)))
    (owner : ∀ id type, stand id = some (.result locals.next type) → id = dest.id) :
    Run.Upto outcomeOf
      (runInstrs machine module.strings call goto (instr :: rest) frame trace)
      ((runInsts machine generated call' [.load locals.next (.ofBasic dest.type) operand] image
        (trace.map printedAs)).bind onward) := by
  subst isLoad
  have member : Instr.load dest address ∈ source.instrs := by simp [split]
  obtain ⟨place, rfl, -, destType⟩ := sound.typed _ member
  obtain ⟨rfl, own⟩ := position.address_eq grounded split List.mem_cons_self found
  obtain ⟨datum, there⟩ := suits.holds _ (demands (.content place.id) List.mem_cons_self)
  have content : frame.content? place = some datum := by simp [Frame.content?, there]
  refine follows_proceed sound split suits demands continues trace
    (mirrors.define datum stands owner) (by simp only [Instr.action, content]) ?_
  simp [runInsts_singleton, Inst.run, mirrors.slots place own, content, destType, Activation.keep]

/-- The code of a store does what the store does. -/
theorem follows_store (placed : Placed stand locals) {address value : Value}
    {operand stored : Operand} (isStore : instr = .store address value)
    (isPlace : Surroundings.operand? ⟨module, wraps, source⟩ locals.operands address =
      some operand)
    (isStored : Surroundings.operand? ⟨module, wraps, source⟩ locals.operands value =
      some stored) :
    Run.Upto outcomeOf
      (runInstrs machine module.strings call goto (instr :: rest) frame trace)
      ((runInsts machine generated call' [.store stored operand] image
        (trace.map printedAs)).bind onward) := by
  subst isStore
  have member : Instr.store address value ∈ source.instrs := by simp [split]
  obtain ⟨place, rfl, -, valueTyped⟩ := sound.typed _ member
  obtain ⟨rfl, own⟩ := position.address_eq grounded split List.mem_cons_self isPlace
  have demands' := demands
  simp only [Instr.demands, List.mem_cons] at demands'
  obtain ⟨datum, isDatum, datumType⟩ := Value.exists_datum machine sound rfl suits valueTyped
    fun supply asked => demands' supply (.inr asked)
  obtain ⟨content, there⟩ :=
    Option.isSome_iff_exists.mp (suits.holds _ (demands' (.slot place.id) (.inl rfl)))
  have scalar := mirrors.scalar?_eq resolves grounded split position placed
    (List.mem_cons_of_mem _ List.mem_cons_self) isStored isDatum
  refine follows_proceed sound split suits demands continues trace
    (mirrors.fill (slots_nodup_of_grounded grounded) own datum)
    (by simp only [Instr.action, there, isDatum]) ?_
  simp [runInsts_singleton, Inst.run, mirrors.slots place own, scalar, Scalar.type_ofDatum,
    datumType]

/-- The code of an operation on two values does what the operation does, unless it traps. -/
theorem follows_binary (placed : Placed stand locals) {opcode : BinaryOpcode} {dest : Temp}
    {left right : Value} {first second : Operand} {type : LType} {inst : Inst}
    (isBinary : instr = .binary opcode dest left right)
    (isFirst : Surroundings.operand? ⟨module, wraps, source⟩ locals.operands left = some first)
    (isSecond : Surroundings.operand? ⟨module, wraps, source⟩ locals.operands right = some second)
    (made : BinaryInst locals.next first second opcode type inst)
    (stands : stand dest.id = some (.result locals.next type))
    (owner : ∀ id type, stand id = some (.result locals.next type) → id = dest.id) :
    Run.Upto outcomeOf
      (runInstrs machine module.strings call goto (instr :: rest) frame trace)
      ((runInsts machine generated call' [inst] image (trace.map printedAs)).bind onward) := by
  subst isBinary
  have member : Instr.binary opcode dest left right ∈ source.instrs := by simp [split]
  obtain ⟨basic, leftTyped, rightTyped, resultTyped⟩ := sound.typed _ member
  have demands' := demands
  simp only [Instr.demands, Instr.operands, List.flatMap_cons, List.flatMap_nil,
    List.append_nil, List.mem_append] at demands'
  obtain ⟨one, isOne, oneType⟩ := Value.exists_datum machine sound rfl suits leftTyped
    fun supply asked => demands' supply (.inl asked)
  obtain ⟨other, isOther, otherType⟩ := Value.exists_datum machine sound rfl suits rightTyped
    fun supply asked => demands' supply (.inr asked)
  rcases BinaryOpcode.compute_typed machine oneType otherType resultTyped with
    traps | ⟨result, computed, -⟩
  · have acts : (Instr.binary opcode dest left right).action machine module.strings frame =
        .trap := by
      simp only [Instr.action, isOne, isOther, traps, Action.ofComputed]
    rw [runInstrs, acts]
    trivial
  · refine follows_proceed sound split suits demands continues trace
      (mirrors.define result stands owner)
      (by simp only [Instr.action, isOne, isOther, computed, Action.ofComputed]) ?_
    rw [runInsts_singleton]
    exact made.run_eq
      (mirrors.scalar?_eq resolves grounded split position placed List.mem_cons_self isFirst isOne)
      (mirrors.scalar?_eq resolves grounded split position placed
        (List.mem_cons_of_mem _ List.mem_cons_self) isSecond isOther) computed

/-- The code of an operation on one value does what the operation does. -/
theorem follows_unary (placed : Placed stand locals) {opcode : UnaryOpcode} {dest : Temp}
    {value : Value} {operand : Operand} {type : LType} {inst : Inst}
    (isUnary : instr = .unary opcode dest value)
    (found : Surroundings.operand? ⟨module, wraps, source⟩ locals.operands value = some operand)
    (made : UnaryInst locals.next operand opcode type inst)
    (stands : stand dest.id = some (.result locals.next type))
    (owner : ∀ id type, stand id = some (.result locals.next type) → id = dest.id) :
    Run.Upto outcomeOf
      (runInstrs machine module.strings call goto (instr :: rest) frame trace)
      ((runInsts machine generated call' [inst] image (trace.map printedAs)).bind onward) := by
  subst isUnary
  have member : Instr.unary opcode dest value ∈ source.instrs := by simp [split]
  obtain ⟨basic, valueTyped, resultTyped⟩ := sound.typed _ member
  obtain ⟨datum, isDatum, datumType⟩ := Value.exists_datum machine sound rfl suits valueTyped
    (by simpa [Instr.demands, Instr.operands] using demands)
  obtain ⟨result, computed, -⟩ := UnaryOpcode.compute_typed machine datumType resultTyped
  refine follows_proceed sound split suits demands continues trace
    (mirrors.define result stands owner)
    (by simp only [Instr.action, isDatum, computed, Action.ofComputed]) ?_
  rw [runInsts_singleton]
  exact made.run_eq (mirrors.scalar?_eq resolves grounded split position placed
    List.mem_cons_self found isDatum) computed

/-- The code of a call of the output function does what the call does. -/
theorem follows_print (placed : Placed stand locals) {dest : Option Temp} {name symbol : Bytes}
    {values : List Value} {type : FunctionType} {passed : List Operand} {next : Nat}
    (isCall : instr = .call dest ⟨.external, name⟩ values)
    (called : Surroundings.callee ⟨module, wraps, source⟩ ⟨.external, name⟩ = .ok (symbol, type))
    (passes : Passes ⟨module, wraps, source⟩ locals.operands type.params.length locals.next values
      insts passed next)
    (unowned : ∀ taken, locals.next ≤ taken → taken ≤ next →
      ∀ id type, stand id ≠ some (.result taken type)) :
    Run.Upto outcomeOf
      (runInstrs machine module.strings call goto (instr :: rest) frame trace)
      ((runInsts machine generated call' (insts ++ [Inst.call (some next) symbol type passed]) image
        (trace.map printedAs)).bind onward) := by
  subst isCall
  have member : Instr.call dest ⟨.external, name⟩ values ∈ source.instrs := by simp [split]
  obtain ⟨rfl, rfl, format, value, basic, rfl, formatTyped, valueTyped⟩ := sound.typed _ member
  obtain ⟨external, found, rfl, rfl⟩ := callee_external called
  obtain ⟨rfl, declared⟩ := resolves.externals external (List.mem_of_find?_eq_some found)
  simp only [Instr.demands, Instr.operands, List.flatMap_cons, List.flatMap_nil, List.append_nil,
    List.mem_append] at demands
  obtain ⟨text, isText, textType⟩ := Value.exists_datum machine sound rfl suits formatTyped
    fun supply asked => demands supply (.inl asked)
  obtain ⟨datum, isDatum, datumType⟩ := Value.exists_datum machine sound rfl suits valueTyped
    fun supply asked => demands supply (.inr asked)
  obtain ⟨content, rfl⟩ : ∃ content, text = .string content := by
    cases text with
    | string content => exact ⟨content, rfl⟩
    | int | float | bool => cases textType
  have acts : (Instr.call none ⟨.external, formatter.name⟩ [format, value]).action machine
      module.strings frame = .print none ⟨content, datum⟩ := by
    simp only [Instr.action, List.mapM_cons, List.mapM_nil, isText, isDatum, Option.pure_def,
      Option.bind_eq_bind, Option.bind_some, externalAction, beq_self_eq_true, if_true]
  have laterSuits : frame.Suits source
      (supplied held [.call none ⟨.external, formatter.name⟩ [format, value]]) := by
    refine suits.mono ?_
    rintro supply (old | ⟨other, within, given⟩)
    · exact old
    · rw [List.mem_singleton.mp within] at given
      cases given
  obtain ⟨first, second, isFirst, isSecond, way⟩ := passes.printed
  -- Behind the code of the arguments, which are passed as the event has them.
  have prints :
    ∀ {image' : Activation Double}, Mirrors machine generated source stand frame image' →
      passed.mapM (Operand.scalar? machine generated image') = some (printedAs ⟨content, datum⟩) →
      Run.Upto outcomeOf (runInstrs machine module.strings call goto
          (.call none ⟨.external, formatter.name⟩ [format, value] :: rest) frame trace)
        ((Inst.run machine generated call' image' (trace.map printedAs)
          (.call (some next) formatter.name (signatureType formatter.signature) passed)).bind
            onward) := by
    intro image' same scalars
    have receives := same.define_other (.word (machine.printed trace.length))
      (unowned next passes.next_le (Nat.le_refl _))
    have after := continues frame _ (trace ++ [⟨content, datum⟩]) laterSuits receives
    rw [List.map_append, List.map_singleton] at after
    rw [runInstrs, acts]
    simpa [Inst.run, scalars, Module.invoke, declared, Activation.receive, Frame.receive]
      using after
  have read : ∀ {image' : Activation Double}, Mirrors machine generated source stand frame image' →
      first.scalar? machine generated image' = some (.text (content ++ [0])) ∧
        second.scalar? machine generated image' = some (.ofDatum datum) := fun same =>
    ⟨same.scalar?_eq resolves grounded split position placed List.mem_cons_self isFirst isText,
      same.scalar?_eq resolves grounded split position placed
        (List.mem_cons_of_mem _ List.mem_cons_self) isSecond isDatum⟩
  have valueType : value.type = basic := by
    obtain ⟨-, denotes⟩ := valueTyped
    cases value with
    | slot | stray => exact denotes.elim
    | constant | param | temp => exact denotes.2
    | string => exact denotes.2.symm
  rcases way with ⟨notBool, rfl, rfl, rfl⟩ | ⟨isBool, rfl, rfl, rfl⟩
  · rw [List.nil_append, runInsts_singleton]
    refine prints mirrors ?_
    obtain ⟨isFormat, isValue⟩ := read mirrors
    have printed := Scalar.printed_eq (datumType.trans_ne (valueType ▸ notBool))
    simp [List.mapM_cons, isFormat, isValue, printedAs, printed]
  · have widened := Scalar.widened_ofDatum (datumType.trans (valueType.symm.trans isBool))
    have same := mirrors.define_other (.printed datum)
      (unowned locals.next (Nat.le_refl _) (Nat.le_succ _))
    have zext : Inst.run machine generated call' image (trace.map printedAs)
        (.zext locals.next second (.int 32)) =
        .done (image.define locals.next (.printed datum), trace.map printedAs) := by
      simp [Inst.run, (read mirrors).2, widened, Activation.keep]
    rw [runInsts_append, runInsts_singleton, zext, Run.bind_done]
    dsimp only
    rw [runInsts_singleton]
    refine prints same ?_
    have isNumber : (Operand.result locals.next (.int 32)).scalar? machine generated
        (image.define locals.next (.printed datum)) = some (.printed datum) :=
      Function.update_self _ _ _
    simp [List.mapM_cons, (read same).1, isNumber, printedAs]

variable (fine : FineCalls module.interface call) (calls : CallsAlike module wraps call call')
include fine calls

/-- The code of a call of a defined function does what the call does. -/
theorem follows_call (placed : Placed stand locals) {dest : Option Temp} {name symbol : Bytes}
    {values : List Value}
    {type : FunctionType} {passed : List Operand} {next : Nat} {number : Option Nat}
    (isCall : instr = .call dest ⟨.defined, name⟩ values)
    (called : Surroundings.callee ⟨module, wraps, source⟩ ⟨.defined, name⟩ = .ok (symbol, type))
    (passes : Passes ⟨module, wraps, source⟩ locals.operands type.params.length locals.next values
      insts passed next)
    (numbered : number.isSome ↔ type.result ≠ .void)
    (stands : ∀ temp ∈ dest, ∀ id ∈ number, ∃ type, stand temp.id = some (.result id type))
    (owner : ∀ taken ∈ number, ∀ id type, stand id = some (.result taken type) →
      ∃ temp ∈ dest, temp.id = id) :
    Run.Upto outcomeOf
      (runInstrs machine module.strings call goto (instr :: rest) frame trace)
      ((runInsts machine generated call' (insts ++ [Inst.call number symbol type passed]) image
        (trace.map printedAs)).bind onward) := by
  subst isCall
  have member : Instr.call dest ⟨.defined, name⟩ values ∈ source.instrs := by simp [split]
  obtain ⟨signature, known, argumentsTyped, destTyped, -⟩ := sound.typed _ member
  obtain ⟨function, found, rfl, rfl⟩ := callee_defined called
  obtain rfl : function.signature = signature := by simpa [IR.Module.interface, found] using known
  obtain ⟨data, isData, dataTypes⟩ :=
    Value.exists_data machine sound rfl suits argumentsTyped demands
  have length : values.length = (signatureType function.signature).params.length := by
    rw [signatureType, List.length_map]
    exact argumentsTyped.length_eq
  obtain ⟨rfl, -, each⟩ := passes.fixed_eq length.le
  have scalars :=
    mirrors.scalars_eq resolves grounded split position placed (List.Subset.refl _) each
    isData
  have acts : (Instr.call dest ⟨.defined, name⟩ values).action machine module.strings frame =
      .invoke dest name data := by
    simp only [Instr.action, isData]
  have undeclared := resolves.functions function (List.mem_of_find?_eq_some found)
  have alike :=
    calls name function found data (by simpa [IR.Function.signature] using dataTypes) trace
  have fineCall := fine name function.signature known data dataTypes trace
  rw [runInstrs, acts, List.nil_append, runInsts_singleton]
  simp only [Inst.run, scalars, Module.invoke, undeclared, Bool.false_eq_true, if_false]
  cases result : call name data trace with
  | trapped => trivial
  | stuck => trivial
  | unfinished =>
      rw [result] at alike
      rw [show call' _ _ _ = .unfinished from alike]
      rfl
  | done outcome =>
      obtain ⟨value, afterwards⟩ := outcome
      rw [result] at alike
      have supplies : (Instr.call dest ⟨.defined, name⟩ values).supplies =
        dest.toList.map fun temp => .result temp.id := rfl
      obtain ⟨later, received, laterSuits⟩ := suits.receive sound supplies
        (fun temp isDest => ⟨result_mem member (by rw [isDest]; rfl), destTyped temp isDest⟩)
        (fineCall.2 value afterwards result)
      obtain ⟨image', receives, same⟩ := mirrors.receive received
        (numbered.trans (isSome_of_returned (fineCall.2 value afterwards result)).symm) stands owner
      rw [show call' _ _ _ = .done (outcomeOf (value, afterwards)) from alike]
      simp only [Run.bind_done, outcomeOf, received, receives]
      exact continues later image' afterwards laterSuits same

/-- **The code of an instruction that goes on to the next one does what the instruction does.** -/
theorem Emits.follows (copies : source.CopiesConstants)
    (emits : Emits ⟨module, wraps, source⟩ locals instr insts terminator last)
    (placed : Placed stand last) (body : instr.isTerminator = false) :
    Run.Upto outcomeOf
      (runInstrs machine module.strings call goto (instr :: rest) frame trace)
      ((runInsts machine generated call' insts image (trace.map printedAs)).bind onward) := by
  have member : instr ∈ source.instrs := by simp [split]
  have typed := sound.typed instr member
  have plain : ∀ dest value, instr = .copy dest value → ∃ content, value = .constant content :=
    fun dest value same => copies dest value (same ▸ member)
  have before := placed.before typed plain grounded split position emits
  have owned : ∀ number id type, locals.next ≤ number → number < last.next →
      stand id = some (.result number type) → ∃ dest, instr.result? = some (.temp dest) ∧
      dest.id = id :=
    fun number id type least most stands =>
      placed.owner typed plain grounded split position emits stands least most
  have owner : ∀ dest number, instr.result? = some (.temp dest) → locals.next ≤ number →
      number < last.next → ∀ id type, stand id = some (.result number type) → id = dest.id := by
    intro dest number isResult least most id type stands
    obtain ⟨other, isOther, rfl⟩ := owned number id type least most stands
    cases isResult.symm.trans isOther
    rfl
  cases emits with
  | @alloca slot =>
      exact follows_proceed sound split suits demands continues trace (mirrors.make slot) rfl rfl
  | @copy dest value operand found =>
      obtain ⟨datum, isDatum, -⟩ := Value.exists_datum machine sound rfl suits typed
        (by simpa [Instr.demands, Instr.operands] using demands)
      have read := mirrors.scalar?_eq resolves grounded split position before
        List.mem_cons_self found isDatum
      exact follows_proceed sound split suits demands continues trace
        (mirrors.assign placed.assigned read) (by simp only [Instr.action, isDatum]) rfl
  | @load dest address operand found =>
      exact follows_load grounded sound split position suits demands mirrors continues
        trace rfl found placed.defined
        (owner dest locals.next rfl (Nat.le_refl _) (Nat.lt_succ_self _))
  | @store address value operand stored isPlace isStored _ =>
      exact follows_store resolves grounded sound split position suits demands mirrors continues
        trace before rfl isPlace isStored
  | @binary opcode dest left right first second type inst isFirst isSecond made =>
      exact follows_binary resolves grounded sound split position suits demands mirrors continues
        trace before rfl isFirst isSecond made placed.defined
        (owner dest locals.next rfl (Nat.le_refl _) (Nat.lt_succ_self _))
  | @unary opcode dest value operand type inst found made =>
      exact follows_unary resolves grounded sound split position suits demands mirrors continues
        trace before rfl found made placed.defined
        (owner dest locals.next rfl (Nat.le_refl _) (Nat.lt_succ_self _))
  | @call dest callee values name type insts passed next called passes notVoid =>
      obtain ⟨linkage, calleeName⟩ := callee
      cases linkage with
      | defined =>
          refine follows_call resolves grounded sound split position suits demands mirrors continues
            trace fine calls before rfl called passes (by simp [notVoid]) ?_ ?_
          · rintro temp rfl id ⟨⟩
            exact ⟨_, placed.received⟩
          · rintro taken ⟨⟩ id kind stands
            obtain ⟨temp, isResult, same⟩ :=
              owned next id kind passes.next_le (Nat.lt_succ_self _) stands
            obtain ⟨_, isDest, isTemp⟩ := Option.map_eq_some_iff.mp isResult
            cases isTemp
            exact ⟨_, isDest, same⟩
      | external =>
          refine follows_print resolves grounded sound split position suits demands mirrors
            continues trace before rfl called passes fun taken least most id kind stands => ?_
          obtain ⟨temp, isResult, -⟩ := owned taken id kind least (Nat.lt_succ_of_le most) stands
          rw [typed.2.1] at isResult
          cases isResult
      | unknown => exact typed.elim
  | @command dest callee values name type insts passed next called passes isVoid =>
      obtain ⟨linkage, calleeName⟩ := callee
      cases linkage with
      | defined =>
          exact follows_call resolves grounded sound split position suits demands mirrors continues
            trace fine calls before rfl called passes (by simp [isVoid])
            (fun _ _ _ absent => absurd absent (Option.not_mem_none _))
            fun _ absent => absurd absent (Option.not_mem_none _)
      | external =>
          obtain ⟨external, found, -, rfl⟩ := callee_external called
          obtain ⟨rfl, -⟩ := resolves.externals external (List.mem_of_find?_eq_some found)
          cases isVoid
      | unknown => exact typed.elim
  | jump | branch | leave | ret => cases body

end Follows

/-! ### Blocks -/

theorem Emits.terminator_eq_none
    (emits : Emits ⟨module, wraps, source⟩ locals instr insts terminator last)
    (body : instr.isTerminator = false) : terminator = none := by
  cases emits with
  | alloca | copy | load | store | binary | unary | call | command => rfl
  | jump | branch | leave | ret => cases body

section Blocks

variable {call : Call Double} {call' : Routine Double} {goto : Onward Double}
    {goto' : Course Double}
  {known : Nat → Set Supply} {held : Set Supply}

/-- Control goes on alike at a block, in frames that suit it. -/
def GoesOnAt (machine : Machine Double) (module : IR.Module) (wraps : Bool) (generated : Module)
    (source : IR.Function) (stand : Nat → Option Operand) (known : Nat → Set Supply)
    (goto : Onward Double) (goto' : Course Double) (target : BlockName) : Prop :=
  ∀ frame image trace, frame.Suits source (known target.id) →
    Mirrors machine generated source stand frame image →
    Run.Upto outcomeOf (goto target.id frame trace)
      (goto' (Surroundings.label ⟨module, wraps, source⟩ target) image (trace.map printedAs))

/-- The end of a block does what its terminator does. -/
theorem Emits.ends (resolves : Resolves module wraps generated) (grounded : source.Grounded)
    (sound : source.Sound module.interface) (split : source.instrs = earlier ++ instr :: later)
    (position : Position source earlier locals) (placed : Placed stand locals)
    (emits : Emits ⟨module, wraps, source⟩ locals instr insts terminator last)
    (ending : instr.isTerminator = true) (suits : frame.Suits source held)
    (demands : ∀ supply ∈ instr.demands, supply ∈ held)
    (targets : ∀ target ∈ instr.targets, known target.id ⊆ held)
    (mirrors : Mirrors machine generated source stand frame image)
    (gotos : ∀ target ∈ instr.targets,
      GoesOnAt machine module wraps generated source stand known goto goto' target)
    (rest : List Instr) (trace : Trace Double) :
    insts = [] ∧ Run.Upto outcomeOf
      (runInstrs machine module.strings call goto (instr :: rest) frame trace)
      (endBlock machine generated goto' terminator (image, trace.map printedAs)) := by
  have typed := sound.typed instr (by simp [split])
  cases emits with
  | alloca | copy | load | store | binary | unary | call | command => cases ending
  | @jump target =>
      have aims : target ∈ (Instr.jump target).targets := List.mem_cons_self
      exact ⟨rfl, gotos target aims frame image trace (suits.mono (targets target aims)) mirrors⟩
  | @branch condition ifTrue ifFalse operand found =>
      obtain ⟨datum, isDatum, datumType⟩ := Value.exists_datum machine sound rfl suits typed
        (by simpa [Instr.demands, Instr.operands] using demands)
      have scalar :=
        mirrors.scalar?_eq resolves grounded split position placed List.mem_cons_self found
        isDatum
      obtain ⟨flag, rfl⟩ : ∃ flag, datum = .bool flag := by
        cases datum with
        | bool flag => exact ⟨flag, rfl⟩
        | int | float | string => cases datumType
      refine ⟨rfl, ?_⟩
      simp only [runInstrs, Instr.action, isDatum, endBlock, Terminator.run, scalar, Scalar.ofDatum]
      cases flag with
      | true =>
          have aims : ifTrue ∈ (Instr.branch condition ifTrue ifFalse).targets := List.mem_cons_self
          exact gotos ifTrue aims frame image trace (suits.mono (targets ifTrue aims)) mirrors
      | false =>
          have aims : ifFalse ∈ (Instr.branch condition ifTrue ifFalse).targets :=
            List.mem_cons_of_mem _ List.mem_cons_self
          exact gotos ifFalse aims frame image trace (suits.mono (targets ifFalse aims)) mirrors
  | leave => exact ⟨rfl, rfl⟩
  | @ret value operand found =>
      obtain ⟨datum, isDatum, -⟩ := Value.exists_datum machine sound rfl suits typed
        (by simpa [Instr.demands, Instr.operands] using demands)
      have scalar :=
        mirrors.scalar?_eq resolves grounded split position placed List.mem_cons_self found
        isDatum
      refine ⟨rfl, ?_⟩
      simp only [runInstrs, Instr.action, isDatum, endBlock, Terminator.run, scalar]
      rfl

/-- **The code of the instructions of a block does what they do.** -/
theorem EmitsAll.follows (resolves : Resolves module wraps generated) (grounded : source.Grounded)
    (sound : source.Sound module.interface) (copies : source.CopiesConstants)
    (fine : FineCalls module.interface call) (calls : CallsAlike module wraps call call')
    {instrs : List Instr} (split : source.instrs = earlier ++ (instrs ++ later))
    (position : Position source earlier locals)
    (emits : EmitsAll ⟨module, wraps, source⟩ locals none instrs insts terminator last)
    (placed : Placed stand last) (shaped : Shaped instrs)
    (ends : ∃ instr ∈ instrs, instr.isTerminator = true)
    (covered : Covered known held instrs) (suits : frame.Suits source held)
    (mirrors : Mirrors machine generated source stand frame image)
    (gotos : ∀ instr ∈ instrs, ∀ target ∈ instr.targets,
      GoesOnAt machine module wraps generated source stand known goto goto' target)
    (trace : Trace Double) :
    Run.Upto outcomeOf (runInstrs machine module.strings call goto instrs frame trace)
      ((runInsts machine generated call' insts image (trace.map printedAs)).bind
        (endBlock machine generated goto' terminator)) := by
  induction instrs generalizing earlier locals insts frame image trace held with
  | nil => simp at ends
  | cons instr rest ih =>
      obtain ⟨demands, targets, restCovered⟩ := covered
      have here : source.instrs = earlier ++ instr :: (rest ++ later) := by simpa using split
      cases emits with
      | @cons _ middle _ _ own _ _ _ first others emitted emitsRest =>
          have after := Position.keeps grounded sound.typed copies first _ _ _ _ _ _ _ here emitted
            (List.Subset.refl _) position
          have behind :=
            placed.before_all grounded sound.typed copies (by simpa using split) after emitsRest
          cases isEnd : instr.isTerminator with
          | true =>
              -- Nothing stands behind a terminator.
              obtain rfl : rest = [] := by
                by_contra more
                exact absurd ((shaped_cons.mp shaped).1 more) (by simp [isEnd])
              have beforeEnd := behind.before (sound.typed instr (by simp [here]))
                (fun dest value same => copies dest value (by simp [here, same])) grounded
                here position emitted
              obtain ⟨rfl, alike⟩ :=
                emitted.ends resolves grounded sound here position beforeEnd isEnd
                suits demands targets mirrors (gotos instr List.mem_cons_self) [] trace
              cases emitsRest
              simpa [runInsts] using alike
          | false =>
              obtain rfl := emitted.terminator_eq_none isEnd
              rw [runInsts_append, Run.bind_assoc]
              refine emitted.follows resolves grounded sound here position suits demands
                mirrors ?_ trace fine calls copies behind isEnd
              intro next image' trace' nextSuits same
              refine ih (by simpa using split) after emitsRest (shaped_cons.mp shaped).2 ?_
                restCovered nextSuits same
                (fun other member => gotos other (List.mem_cons_of_mem _ member)) trace'
              obtain ⟨ending, member, isTerminator⟩ := ends
              rcases List.mem_cons.mp member with rfl | within
              · exact absurd isTerminator (by simp [isEnd])
              · exact ⟨ending, within, isTerminator⟩

end Blocks

end Steps

end ScriptCompiler.LLVM
