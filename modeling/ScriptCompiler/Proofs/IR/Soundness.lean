import Mathlib.Data.Set.Basic
import ScriptCompiler.Proofs.IR.Graph
import ScriptCompiler.Proofs.Semantics.Blocks

/-!
# Sound functions

What the code of a function keeps to, whoever made it: every number is defined once, operands have
the types that their instruction asks for, and on every way from the entry to an instruction the
results and slots that it reads have been supplied.  The last part is certified by a set of supplies
for each block that every jump to the block brings along.

A well-formed module of sound functions never comes to something without meaning: each of its calls
with arguments of the right types goes on, traps or returns a value of the right type
(`Module.call_sound`).
-/

namespace ScriptCompiler

/-- A type that has values. -/
def BasicType.IsValue (type : BasicType) : Prop := type ≠ .void ∧ type ≠ .invalid

namespace IR

open Semantics

/-- What a function may refer to outside of it. -/
structure Interface where
  /-- The number of string constants. -/
  texts : Nat
  /-- The functions that can be called. -/
  signature? : Bytes → Option Signature

/-- What the functions of a module may refer to. -/
def Module.interface (module : Module) : Interface :=
  ⟨module.strings.length, fun name => (module.function? name).map Function.signature⟩

/-- A constant of the language: it holds something, and an integer fits in 32 bits. -/
def Constant.Fits : Constant → Prop
  | .int value => -2147483648 ≤ value ∧ value ≤ 2147483647
  | .nothing => False
  | .float _ | .bool _ => True

/-- The values that the instructions of a function define. -/
def Function.results (function : Function) : List Value := function.instrs.filterMap Instr.result?

/-- An operand stands for something of a type that a function can read. -/
def Value.Denotes (function : Function) (interface : Interface) (type : BasicType) : Value → Prop
  | .constant content => content.Fits ∧ content.type = type
  | .param place => place ∈ function.params ∧ place.type = type
  | .temp result => Value.temp result ∈ function.results ∧ result.type = type
  | .string index => index < interface.texts ∧ type = .string
  | .slot _ | .stray _ => False

/-- An operand of a function has a type, which is one that has values. -/
def Value.HasType (function : Function) (interface : Interface) (type : BasicType) (value : Value) :
    Prop :=
  type.IsValue ∧ value.Denotes function interface type

/-- The type of the result of an operation on two values of a type. -/
def BinaryOpcode.result? : BinaryOpcode → BasicType → Option BasicType
  | .add, .int | .sub, .int | .mul, .int | .div, .int | .mod, .int => some .int
  | .eq, .int | .ne, .int | .lt, .int | .le, .int | .gt, .int | .ge, .int => some .bool
  | .fadd, .float | .fsub, .float | .fmul, .float | .fdiv, .float | .fmod, .float => some .float
  | .feq, .float | .fne, .float | .flt, .float | .fle, .float | .fgt, .float | .fge, .float =>
      some .bool
  | .eq, .bool | .ne, .bool => some .bool
  | _, _ => none

/-- The type of the result of an operation on a value of a type. -/
def UnaryOpcode.result? : UnaryOpcode → BasicType → Option BasicType
  | .neg, .int => some .int
  | .fneg, .float => some .float
  | .not, .bool => some .bool
  | _, _ => none

/-- The operands of an instruction have the types that it asks for. -/
def Instr.Typed (function : Function) (interface : Interface) : Instr → Prop
  | .binary opcode dest left right =>
      ∃ type, left.HasType function interface type ∧ right.HasType function interface type ∧
        opcode.result? type = some dest.type
  | .unary opcode dest operand =>
      ∃ type, operand.HasType function interface type ∧ opcode.result? type = some dest.type
  | .copy dest value => value.HasType function interface dest.type
  | .alloca place => place.type.IsValue
  | .load dest address =>
      ∃ place, address = .slot place ∧ Value.slot place ∈ function.results ∧ dest.type = place.type
  | .store address value =>
      ∃ place, address = .slot place ∧ Value.slot place ∈ function.results ∧
        value.HasType function interface place.type
  | .call dest ⟨.defined, name⟩ arguments =>
      ∃ signature, interface.signature? name = some signature ∧
        List.Forall₂ (fun value type => value.HasType function interface type) arguments
          signature.params ∧
        (∀ temp ∈ dest, temp.type = signature.result ∧ signature.result.IsValue) ∧
        (signature.result ≠ .void → dest.isSome)
  | .call dest ⟨.external, name⟩ arguments =>
      name = Lowering.formatter.name ∧ dest = none ∧
        ∃ format value type, arguments = [format, value] ∧
        format.HasType function interface .string ∧
          value.HasType function interface type
  | .call _ ⟨.unknown, _⟩ _ => False
  | .jump _ => True
  | .branch condition _ _ => condition.HasType function interface .bool
  | .ret none => function.result = .void
  | .ret (some value) => value.HasType function interface function.result

/-- Something that an instruction makes for later ones. -/
inductive Supply where
  /-- A result. -/
  | result (id : Nat)
  /-- A slot. -/
  | slot (id : Nat)
  /-- Something in a slot. -/
  | content (id : Nat)
  deriving DecidableEq

/-- What reading a value asks for. -/
def Value.demands : Value → List Supply
  | .temp result => [.result result.id]
  | _ => []

/-- What an instruction asks for. -/
def Instr.demands : Instr → List Supply
  | .load _ (.slot place) => [.content place.id]
  | .store (.slot place) value => .slot place.id :: value.demands
  | instr => instr.operands.flatMap Value.demands

/-- What an instruction supplies. -/
def Instr.supplies : Instr → List Supply
  | .store (.slot place) _ => [.content place.id]
  | .alloca place => [.slot place.id]
  | .binary _ dest _ _ | .unary _ dest _ | .copy dest _ | .load dest _ => [.result dest.id]
  | .call dest _ _ => dest.toList.map fun temp => .result temp.id
  | _ => []

/-- What is supplied behind instructions that start with some supplies. -/
def supplied (held : Set Supply) (instrs : List Instr) : Set Supply :=
  { supply | supply ∈ held ∨ ∃ instr ∈ instrs, supply ∈ instr.supplies }

/-- Instructions that start with some supplies find what they ask for and bring every jump what its
target starts with. -/
def Covered (known : Nat → Set Supply) : Set Supply → List Instr → Prop
  | _, [] => True
  | held, instr :: rest =>
      (∀ supply ∈ instr.demands, supply ∈ held) ∧
        (∀ target ∈ instr.targets, known target.id ⊆ held) ∧
        Covered known (supplied held [instr]) rest

/-- What the code of a function keeps to. -/
structure Function.Sound (interface : Interface) (function : Function) : Prop where
  /-- The numbers of blocks are unique. -/
  blocks_nodup : (function.blocks.map fun block => block.name.id).Nodup
  /-- The labels of blocks are unique. -/
  labels_nodup : (function.blocks.map fun block => block.name.label).Nodup
  /-- There is an entry block. -/
  entry_isSome : (function.block? Function.entry).isSome
  /-- The parameters have the first numbers. -/
  params_id : ∀ (index : Nat) (place : Place), function.params[index]? = some place →
    place.id = index
  /-- The names of the parameters are unique. -/
  params_nodup : (function.params.map Place.name).Nodup
  /-- Every number is defined once. -/
  results_nodup : (function.results.filterMap Value.id?).Nodup
  /-- No number of a parameter is defined again. -/
  results_fresh : ∀ value ∈ function.results, ∀ id ∈ value.id?, function.params.length ≤ id
  /-- Operands have the right types. -/
  typed : ∀ instr ∈ function.instrs, instr.Typed function interface
  /-- What instructions ask for has been supplied. -/
  covered : ∃ known : Nat → Set Supply, known Function.entry = ∅ ∧
    ∀ block ∈ function.blocks, Covered known (known block.name.id) block.instrs

/-- The functions of a module are sound. -/
def Module.Sound (module : Module) : Prop :=
  ∀ function ∈ module.functions, function.Sound module.interface

section Typing

variable {function larger : Function} {interface interface' : Interface}

/-- A larger function with the same head has all the typed operands of a smaller one. -/
theorem Value.HasType.mono (params : ∀ place ∈ function.params, place ∈ larger.params)
    (results : ∀ value ∈ function.results, value ∈ larger.results)
    (texts : interface.texts ≤ interface'.texts) {type : BasicType} {value : Value}
    (typed : value.HasType function interface type) : value.HasType larger interface' type := by
  obtain ⟨isValue, typed⟩ := typed
  refine ⟨isValue, ?_⟩
  cases value with
  | constant content => exact typed
  | param place => exact ⟨params place typed.1, typed.2⟩
  | slot place => exact typed
  | temp result => exact ⟨results _ typed.1, typed.2⟩
  | string index => exact ⟨Nat.lt_of_lt_of_le typed.1 texts, typed.2⟩
  | stray name => exact typed

theorem Instr.Typed.mono (params : larger.params = function.params)
    (result : larger.result = function.result)
    (results : ∀ value ∈ function.results, value ∈ larger.results)
    (texts : interface.texts ≤ interface'.texts)
    (signatures : ∀ name signature, interface.signature? name = some signature →
      interface'.signature? name = some signature) {instr : Instr}
    (typed : instr.Typed function interface) : instr.Typed larger interface' := by
  have operand : ∀ {type : BasicType} {value : Value}, value.HasType function interface type →
      value.HasType larger interface' type :=
    Value.HasType.mono (fun place member => params ▸ member) results texts
  cases instr with
  | binary opcode dest left right =>
      obtain ⟨type, leftTyped, rightTyped, resultTyped⟩ := typed
      exact ⟨type, operand leftTyped, operand rightTyped, resultTyped⟩
  | unary opcode dest value =>
      obtain ⟨type, valueTyped, resultTyped⟩ := typed
      exact ⟨type, operand valueTyped, resultTyped⟩
  | copy dest value => exact operand typed
  | alloca place => exact typed
  | load dest address =>
      obtain ⟨place, isSlot, member, destType⟩ := typed
      exact ⟨place, isSlot, results _ member, destType⟩
  | store address value =>
      obtain ⟨place, isSlot, member, valueTyped⟩ := typed
      exact ⟨place, isSlot, results _ member, operand valueTyped⟩
  | call dest callee arguments =>
      obtain ⟨linkage, name⟩ := callee
      cases linkage with
      | defined =>
          obtain ⟨signature, known, argumentsTyped, destTyped⟩ := typed
          exact ⟨signature, signatures name signature known, argumentsTyped.imp fun _ _ => operand,
            destTyped⟩
      | external =>
          obtain ⟨isFormatter, noDest, format, value, type, split, formatTyped, valueTyped⟩ := typed
          exact ⟨isFormatter, noDest, format, value, type, split, operand formatTyped,
            operand valueTyped⟩
      | unknown => exact typed
  | jump target => exact typed
  | branch condition ifTrue ifFalse => exact operand typed
  | ret value =>
      cases value with
      | none => exact result.trans typed
      | some value =>
          simp only [Instr.Typed, result] at typed ⊢
          exact operand typed

/-- A function stays sound when more can be referred to. -/
theorem Function.Sound.mono (sound : function.Sound interface)
    (texts : interface.texts ≤ interface'.texts)
    (signatures : ∀ name signature, interface.signature? name = some signature →
      interface'.signature? name = some signature) : function.Sound interface' :=
  { sound with
    typed := fun instr member =>
      (sound.typed instr member).mono rfl rfl (fun _ there => there) texts signatures }

/-- A number is defined by one value. -/
theorem Function.Sound.eq_of_id (sound : function.Sound interface) {first second : Value} {id : Nat}
    (firstMem : first ∈ function.results) (secondMem : second ∈ function.results)
    (firstId : first.id? = some id) (secondId : second.id? = some id) : first = second := by
  have nodup := sound.results_nodup
  generalize function.results = results at nodup firstMem secondMem
  induction results with
  | nil => cases firstMem
  | cons value rest ih =>
      have later : ∀ {other : Value}, other ∈ rest → other.id? = some id → value.id? ≠ some id := by
        intro other member otherId valueId
        rw [List.filterMap_cons_some valueId, List.nodup_cons] at nodup
        exact nodup.1 (List.mem_filterMap.mpr ⟨other, member, otherId⟩)
      have restNodup : (rest.filterMap Value.id?).Nodup := by
        cases valueId : value.id? with
        | none => rwa [List.filterMap_cons_none valueId] at nodup
        | some number =>
            rw [List.filterMap_cons_some valueId] at nodup
            exact nodup.of_cons
      rcases List.mem_cons.mp firstMem with rfl | firstLater
      · rcases List.mem_cons.mp secondMem with rfl | secondLater
        · rfl
        · exact absurd firstId (later secondLater secondId)
      · rcases List.mem_cons.mp secondMem with rfl | secondLater
        · exact absurd secondId (later firstLater firstId)
        · exact ih restNodup firstLater secondLater

end Typing

section Supplies

variable {known : Nat → Set Supply} {held : Set Supply}

theorem supplied_nil : supplied held [] = held := by
  ext supply
  simp [supplied]

theorem supplied_append (first second : List Instr) :
    supplied held (first ++ second) = supplied (supplied held first) second := by
  ext supply
  simp only [supplied, Set.mem_ofPred_eq, List.mem_append, or_and_right, exists_or, or_assoc]

theorem subset_supplied (instrs : List Instr) : held ⊆ supplied held instrs :=
  fun _ member => .inl member

/-- Code is covered piece by piece. -/
theorem covered_append {first second : List Instr} :
    Covered known held (first ++ second) ↔
      Covered known held first ∧ Covered known (supplied held first) second := by
  induction first generalizing held with
  | nil => simp [Covered, supplied_nil]
  | cons instr rest ih =>
      rw [List.cons_append, Covered, Covered, ih, ← supplied_append, List.singleton_append]
      simp only [and_assoc]

/-- A certificate matters only at the targets of the code. -/
theorem Covered.congr {known' : Nat → Set Supply} {instrs : List Instr}
    (same : ∀ instr ∈ instrs, ∀ target ∈ instr.targets, known' target.id = known target.id)
    (covered : Covered known held instrs) : Covered known' held instrs := by
  induction instrs generalizing held with
  | nil => trivial
  | cons instr rest ih =>
      obtain ⟨demands, targets, later⟩ := covered
      refine ⟨demands, fun target member => ?_, ih (fun other within => ?_) later⟩
      · rw [same instr List.mem_cons_self target member]
        exact targets target member
      · exact same other (List.mem_cons_of_mem instr within)

end Supplies

end IR

end ScriptCompiler
