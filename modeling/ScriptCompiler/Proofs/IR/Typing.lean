import ScriptCompiler.Proofs.IR.Soundness

/-!
# Well-typed code

What can be said about the types in a function by looking at its instructions alone: the operands of
each instruction have the types that it asks for, its result has the type that it makes, and a
number has one type wherever it occurs.  Unlike soundness, this does not ask where operands come
from, so it survives the deletion of any instructions.

The code of a sound function is well typed (`Function.Sound.wellTyped`).
-/

namespace ScriptCompiler.IR

/-- An operand yields values of a type. -/
def Value.Yields (type : BasicType) : Value → Prop
  | .slot _ | .stray _ => False
  | value => type.IsValue ∧ value.type = type

/-- An address is that of a slot for values of a type. -/
def Value.Holds (type : BasicType) : Value → Prop
  | .slot place => type.IsValue ∧ place.type = type
  | _ => False

/-- A value that is numbered has the type of its number. -/
def Value.Obeys (types : Nat → BasicType) (value : Value) : Prop :=
  ∀ id ∈ value.id?, value.type = types id

/-- The types that printing knows. -/
def printable : List BasicType := [.int, .float, .bool, .string]

/-- The operands and the result of an instruction have the types that go together, in a function
with a result type that may refer to an interface. -/
def Instr.WellTyped (interface : Interface) (result : BasicType) : Instr → Prop
  | .binary opcode dest left right =>
      ∃ type operator, left.Yields type ∧ right.Yields type ∧
        Lowering.binaryOpcode? type operator = some opcode ∧
        dest.type = if opcode.isComparison then .bool else type
  | .unary opcode dest operand =>
      ∃ operator, operand.Yields dest.type ∧
        Lowering.unaryOpcode? dest.type operator = some opcode
  | .copy dest value => value.Yields dest.type
  | .alloca place => place.type.IsValue
  | .load dest address => address.Holds dest.type
  | .store address value => ∃ type, address.Holds type ∧ value.Yields type
  | .call dest ⟨.defined, name⟩ arguments =>
      ∃ signature, interface.signature? name = some signature ∧
        arguments.map Value.type = signature.params ∧
        (∀ value ∈ arguments, value.Yields value.type) ∧
        dest.map Temp.type = if signature.result = .void then none else some signature.result
  | .call dest ⟨.external, name⟩ arguments =>
      name = Lowering.formatter.name ∧ dest = none ∧
        ∃ format value type, arguments = [format, value] ∧ format.Yields .string ∧
          value.Yields type ∧ type ∈ printable
  | .call _ ⟨.unknown, _⟩ _ => False
  | .jump _ => True
  | .branch condition _ _ => condition.Yields .bool
  | .ret none => result = .void
  | .ret (some value) => result ≠ .void ∧ value.Yields result

/-- An instruction is well typed, and what it reads and defines has the types of its numbers. -/
structure Instr.Consistent (interface : Interface) (result : BasicType) (types : Nat → BasicType)
    (instr : Instr) : Prop where
  /-- The types go together. -/
  typed : instr.WellTyped interface result
  /-- What the instruction reads has the types of its numbers. -/
  operands : ∀ value ∈ instr.operands, value.Obeys types
  /-- What the instruction defines has the types of its numbers. -/
  results : ∀ value ∈ instr.result?, value.Obeys types

/-- The code of a function is well typed, with a type for each of its numbers. -/
structure Function.WellTyped (interface : Interface) (types : Nat → BasicType)
    (function : Function) :
    Prop where
  /-- The parameters have the types of their numbers. -/
  params : ∀ place ∈ function.params, place.type = types place.id
  /-- Each instruction is well typed. -/
  instrs : ∀ instr ∈ function.instrs, instr.Consistent interface function.result types

/-- All functions of a module are well typed. -/
def Module.WellTyped (module : Module) : Prop :=
  ∀ function ∈ module.functions, ∃ types, function.WellTyped module.interface types

section Values

variable {type : BasicType} {value : Value}

theorem Value.Yields.isValue (yields : value.Yields type) : value.type.IsValue := by
  cases value with
  | slot | stray => exact yields.elim
  | constant | param | temp | string => exact yields.2 ▸ yields.1

theorem Value.Holds.isValue (holds : value.Holds type) : value.type.IsValue := by
  cases value with
  | slot place =>
      obtain ⟨isValue, rfl⟩ := holds
      exact isValue
  | constant | param | temp | string | stray => exact holds.elim

theorem mem_printable (isValue : type.IsValue) : type ∈ printable := by
  cases type with
  | invalid => exact absurd rfl isValue.2
  | void => exact absurd rfl isValue.1
  | int | float | bool | string => decide

theorem Value.HasType.yields {function : Function} {interface : Interface}
    (typed : value.HasType function interface type) : value.Yields type := by
  obtain ⟨isValue, denotes⟩ := typed
  cases value with
  | constant | param | temp => exact ⟨isValue, denotes.2⟩
  | string => exact ⟨isValue, denotes.2.symm⟩
  | slot | stray => exact denotes.elim

/-- No operand of a well-typed instruction is without a value. -/
theorem Instr.WellTyped.operands_isValue {interface : Interface} {result : BasicType}
    {instr : Instr}
    (typed : instr.WellTyped interface result) : ∀ value ∈ instr.operands, value.type.IsValue := by
  cases instr with
  | binary opcode dest left right =>
      obtain ⟨type, operator, leftYields, rightYields, -⟩ := typed
      simpa [operands] using ⟨leftYields.isValue, rightYields.isValue⟩
  | unary opcode dest operand =>
      obtain ⟨operator, yields, -⟩ := typed
      simpa [operands] using yields.isValue
  | copy dest value => simpa [operands] using Value.Yields.isValue typed
  | alloca place => simp [operands]
  | load dest address => simpa [operands] using Value.Holds.isValue typed
  | store address value =>
      obtain ⟨type, holds, yields⟩ := typed
      simpa [operands] using ⟨holds.isValue, yields.isValue⟩
  | call dest callee arguments =>
      obtain ⟨linkage, name⟩ := callee
      cases linkage with
      | defined =>
          obtain ⟨signature, -, -, yields, -⟩ := typed
          exact fun value member => (yields value member).isValue
      | external =>
          obtain ⟨-, -, format, value, type, rfl, formatYields, valueYields, -⟩ := typed
          simpa [operands] using ⟨formatYields.isValue, valueYields.isValue⟩
      | unknown => exact typed.elim
  | jump target => simp [operands]
  | branch condition ifTrue ifFalse => simpa [operands] using Value.Yields.isValue typed
  | ret value =>
      cases value with
      | none => simp [operands]
      | some value => simpa [operands] using typed.2.isValue

end Values

/-! ### From sound code -/

section Sound

variable {function : Function} {interface : Interface}

/-- The operator whose table has an operation. -/
def BinaryOpcode.operator : BinaryOpcode → TokenKind
  | .add | .fadd => .plus
  | .sub | .fsub => .minus
  | .mul | .fmul => .star
  | .div | .fdiv => .slash
  | .mod | .fmod => .percent
  | .eq | .feq => .equal
  | .ne | .fne => .notEqual
  | .lt | .flt => .less
  | .le | .fle => .lessEqual
  | .gt | .fgt => .greater
  | .ge | .fge => .greaterEqual
  | .unlisted _ => .eof

theorem BinaryOpcode.operator_of_result? {opcode : BinaryOpcode} {type result : BasicType}
    (typed : opcode.result? type = some result) :
    Lowering.binaryOpcode? type opcode.operator = some opcode ∧
      result = if opcode.isComparison then .bool else type := by
  unfold BinaryOpcode.result? at typed
  split at typed <;> cases typed <;> exact ⟨rfl, rfl⟩

theorem UnaryOpcode.operator_of_result? {opcode : UnaryOpcode} {type result : BasicType}
    (typed : opcode.result? type = some result) :
    type = result ∧ ∃ operator, Lowering.unaryOpcode? result operator = some opcode := by
  unfold UnaryOpcode.result? at typed
  split at typed <;> cases typed
  · exact ⟨rfl, .minus, rfl⟩
  · exact ⟨rfl, .minus, rfl⟩
  · exact ⟨rfl, .bang, rfl⟩

theorem Value.HasType.type_eq {type : BasicType} {value : Value}
    (typed : value.HasType function interface type) : value.type = type := by
  have yields := typed.yields
  cases value with
  | slot | stray => exact yields.elim
  | constant | param | temp | string => exact yields.2

theorem arguments_typed {arguments : List Value} {types : List BasicType}
    (typed : List.Forall₂ (fun value type => value.HasType function interface type)
      arguments types) :
    arguments.map Value.type = types ∧
      ∀ value ∈ arguments, value.HasType function interface value.type := by
  induction typed with
  | nil => simp
  | cons head _ ih =>
      have same := head.type_eq
      exact ⟨by rw [List.map_cons, same, ih.1], List.forall_mem_cons.mpr ⟨same.symm ▸ head, ih.2⟩⟩

theorem Function.Sound.slot_isValue (sound : function.Sound interface) {place : Place}
    (made : Value.slot place ∈ function.results) : place.type.IsValue := by
  obtain ⟨instr, member, isResult⟩ := List.mem_filterMap.mp made
  have typed := sound.typed instr member
  cases instr with
  | alloca slot =>
      obtain rfl : slot = place := by
        injection Option.some.inj isResult
      exact typed
  | call dest callee arguments =>
      obtain ⟨temp, -, other⟩ := Option.map_eq_some_iff.mp isResult
      cases other
  | binary | unary | copy | load | store | jump | branch | ret => cases isResult

theorem Function.Sound.instr_wellTyped (sound : function.Sound interface) {instr : Instr}
    (member : instr ∈ function.instrs) : instr.WellTyped interface function.result := by
  have typed := sound.typed instr member
  cases instr with
  | binary opcode dest left right =>
      obtain ⟨type, leftTyped, rightTyped, resultTyped⟩ := typed
      obtain ⟨listed, result⟩ := BinaryOpcode.operator_of_result? resultTyped
      exact ⟨type, _, leftTyped.yields, rightTyped.yields, listed, result⟩
  | unary opcode dest operand =>
      obtain ⟨type, operandTyped, resultTyped⟩ := typed
      obtain ⟨rfl, operator, listed⟩ := UnaryOpcode.operator_of_result? resultTyped
      exact ⟨operator, operandTyped.yields, listed⟩
  | copy dest value => exact Value.HasType.yields typed
  | alloca place => exact typed
  | load dest address =>
      obtain ⟨place, rfl, made, destType⟩ := typed
      exact ⟨destType ▸ sound.slot_isValue made, destType.symm⟩
  | store address value =>
      obtain ⟨place, rfl, made, valueTyped⟩ := typed
      exact ⟨place.type, ⟨sound.slot_isValue made, rfl⟩, valueTyped.yields⟩
  | call dest callee arguments =>
      obtain ⟨linkage, name⟩ := callee
      cases linkage with
      | defined =>
          obtain ⟨signature, known, argumentsTyped, destTyped, kept⟩ := typed
          obtain ⟨types, typed⟩ := arguments_typed argumentsTyped
          refine ⟨signature, known, types, fun value given => (typed value given).yields, ?_⟩
          cases dest with
          | none =>
              have void : signature.result = .void := by
                by_contra given
                exact absurd (kept given) (by simp)
              rw [if_pos void]
              rfl
          | some temp =>
              obtain ⟨same, isValue⟩ := destTyped temp rfl
              rw [if_neg isValue.1, Option.map_some, same]
      | external =>
          obtain ⟨isFormatter, noDest, format, value, type, split, formatTyped, valueTyped⟩ := typed
          exact ⟨isFormatter, noDest, format, value, type, split, formatTyped.yields,
            valueTyped.yields, mem_printable valueTyped.1⟩
      | unknown => exact typed
  | jump target => trivial
  | branch condition ifTrue ifFalse => exact Value.HasType.yields typed
  | ret value =>
      cases value with
      | none => exact typed
      | some value => exact ⟨typed.1.1, Value.HasType.yields typed⟩

/-- What a function can name by a number: its parameters and what its instructions define. -/
def Function.numbered (function : Function) : List Value :=
  function.params.map .param ++ function.results

theorem Function.Sound.eq_of_numbered (sound : function.Sound interface) {first second : Value}
    {id : Nat} (firstMem : first ∈ function.numbered) (secondMem : second ∈ function.numbered)
    (firstId : first.id? = some id) (secondId : second.id? = some id) : first = second := by
  -- Numbers of parameters are their places, and the others lie behind them.
  have param : ∀ {value : Value}, value ∈ function.params.map Value.param → value.id? = some id →
      id < function.params.length ∧ ∃ place, function.params[id]? = some place ∧
      value = .param place := by
    intro value member isId
    obtain ⟨place, within, rfl⟩ := List.mem_map.mp member
    obtain ⟨index, found⟩ := List.mem_iff_getElem?.mp within
    obtain rfl : place.id = id := Option.some.inj isId
    have same := sound.params_id index place found
    rw [same]
    exact ⟨(List.getElem?_eq_some_iff.mp found).1, place, found, rfl⟩
  have result : ∀ {value : Value}, value ∈ function.results → value.id? = some id →
      function.params.length ≤ id := fun member isId => sound.results_fresh _ member id isId
  rcases List.mem_append.mp firstMem with firstParam | firstResult <;>
    rcases List.mem_append.mp secondMem with secondParam | secondResult
  · obtain ⟨-, place, found, rfl⟩ := param firstParam firstId
    obtain ⟨-, other, found', rfl⟩ := param secondParam secondId
    rw [found] at found'
    cases found'
    rfl
  · exact absurd (param firstParam firstId).1 (Nat.not_lt.mpr (result secondResult secondId))
  · exact absurd (param secondParam secondId).1 (Nat.not_lt.mpr (result firstResult firstId))
  · exact sound.eq_of_id firstResult secondResult firstId secondId

theorem Value.HasType.numbered {type : BasicType} {value : Value}
    (typed : value.HasType function interface type) (isNumbered : value.id?.isSome) :
    value ∈ function.numbered := by
  cases value with
  | param place => exact List.mem_append_left _ (List.mem_map_of_mem typed.2.1)
  | temp result => exact List.mem_append_right _ typed.2.1
  | constant | string => cases isNumbered
  | slot | stray => exact typed.2.elim

/-- The numbered operands of sound code are parameters and results. -/
theorem Function.Sound.operand_numbered (sound : function.Sound interface) {instr : Instr}
    (member : instr ∈ function.instrs) {value : Value} (read : value ∈ instr.operands)
    (isNumbered : value.id?.isSome) : value ∈ function.numbered := by
  have typed := sound.typed instr member
  cases instr with
  | binary opcode dest left right =>
      obtain ⟨type, leftTyped, rightTyped, -⟩ := typed
      simp only [Instr.operands, List.mem_cons, List.not_mem_nil, or_false] at read
      rcases read with rfl | rfl
      · exact leftTyped.numbered isNumbered
      · exact rightTyped.numbered isNumbered
  | unary opcode dest operand =>
      obtain ⟨type, operandTyped, -⟩ := typed
      obtain rfl := List.mem_singleton.mp read
      exact operandTyped.numbered isNumbered
  | copy dest operand =>
      obtain rfl := List.mem_singleton.mp read
      exact Value.HasType.numbered typed isNumbered
  | alloca place => cases read
  | load dest address =>
      obtain ⟨place, rfl, made, -⟩ := typed
      obtain rfl := List.mem_singleton.mp read
      exact List.mem_append_right _ made
  | store address stored =>
      obtain ⟨place, rfl, made, storedTyped⟩ := typed
      simp only [Instr.operands, List.mem_cons, List.not_mem_nil, or_false] at read
      rcases read with rfl | rfl
      · exact List.mem_append_right _ made
      · exact storedTyped.numbered isNumbered
  | call dest callee arguments =>
      obtain ⟨linkage, name⟩ := callee
      cases linkage with
      | defined =>
          obtain ⟨signature, -, argumentsTyped, -⟩ := typed
          exact ((arguments_typed argumentsTyped).2 value read).numbered isNumbered
      | external =>
          obtain ⟨-, -, format, printed, type, rfl, formatTyped, printedTyped⟩ := typed
          simp only [Instr.operands, List.mem_cons, List.not_mem_nil, or_false] at read
          rcases read with rfl | rfl
          · exact formatTyped.numbered isNumbered
          · exact printedTyped.numbered isNumbered
      | unknown => exact typed.elim
  | jump target => cases read
  | branch condition ifTrue ifFalse =>
      obtain rfl := List.mem_singleton.mp read
      exact Value.HasType.numbered typed isNumbered
  | ret result =>
      cases result with
      | none => cases read
      | some result =>
          obtain rfl := List.mem_singleton.mp read
          exact Value.HasType.numbered typed isNumbered

/-- The code of a sound function is well typed. -/
theorem Function.Sound.wellTyped (sound : function.Sound interface) :
    ∃ types, function.WellTyped interface types := by
  classical
  let types : Nat → BasicType := fun id =>
    if known : ∃ value ∈ function.numbered, value.id? = some id then known.choose.type else .invalid
  have obeys : ∀ value ∈ function.numbered, value.Obeys types := by
    intro value member id isId
    have known : ∃ value ∈ function.numbered, value.id? = some id := ⟨value, member, isId⟩
    have same : known.choose = value :=
      sound.eq_of_numbered known.choose_spec.1 member known.choose_spec.2 isId
    simp only [types, dif_pos known, same]
  refine ⟨types, ?_, fun instr member => ⟨sound.instr_wellTyped member, ?_, ?_⟩⟩
  · intro place member
    exact obeys (.param place) (List.mem_append_left _ (List.mem_map_of_mem member)) place.id rfl
  · intro value read id isId
    exact obeys value (sound.operand_numbered member read (Option.isSome_of_mem isId)) id isId
  · intro value made
    exact obeys value (List.mem_append_right _ (List.mem_filterMap.mpr ⟨instr, member, made⟩))

end Sound

end ScriptCompiler.IR
