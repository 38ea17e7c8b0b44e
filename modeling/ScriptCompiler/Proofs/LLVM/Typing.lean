import ScriptCompiler.Proofs.IR.Typing
import ScriptCompiler.Proofs.LLVM.Names
import ScriptCompiler.Proofs.Lowering.WellTyped

/-!
# Generated code is well typed

The typing rules of the generated part of LLVM assembly: operands refer to what the function and the
module define, with the types that it has there, and the operands of an instruction have the types
that go together.

The code of a function of a built module is well typed.  The wrapper of an entry function with
parameters is not, since it passes no arguments; so a generated module is well typed exactly if it
has no such wrapper (`generate_wellTyped_iff`).
-/

namespace ScriptCompiler.LLVM

open IR Lowering

/-! ### The typing rules -/

/-- The type of a function. -/
def Function.type (function : Function) : FunctionType :=
  ⟨function.params.map Prod.snd, function.result, false⟩

/-- The functions of a module with their types. -/
def Module.types (module : Module) : List (Bytes × FunctionType) :=
  (module.declarations.map fun declaration => (declaration.name, declaration.type)) ++
    module.functions.map fun function => (function.name, function.type)

/-- The number and the type of the result of an instruction. -/
def Inst.result? : Inst → Option (Nat × LType)
  | .alloca _ _ | .store _ _ => none
  | .load number content _ => some (number, content)
  | .arithmetic number _ left _ => some (number, left.type)
  | .icmp number _ _ _ | .fcmp number _ _ _ => some (number, .int 1)
  | .fneg number operand => some (number, operand.type)
  | .zext number _ target => some (number, target)
  | .call number _ type _ => number.map fun result => (result, type.result)

/-- The operands of an instruction. -/
def Inst.operands : Inst → List Operand
  | .alloca _ _ => []
  | .load _ _ address => [address]
  | .store value address => [value, address]
  | .arithmetic _ _ left right | .icmp _ _ left right | .fcmp _ _ left right => [left, right]
  | .fneg _ operand | .zext _ operand _ => [operand]
  | .call _ _ _ arguments => arguments

/-- The operands of a terminator. -/
def Terminator.operands : Terminator → List Operand
  | .br _ => []
  | .condBr condition _ _ => [condition]
  | .ret value => value.toList

/-- The instructions of a function. -/
def Function.insts (function : Function) : List Inst := function.blocks.flatMap Block.insts

/-- An operand refers to something that is defined with its type. -/
def Operand.Refers (module : Module) (function : Function) : Operand → Prop
  | .int _ | .double _ | .bool _ => True
  | .text name size =>
      ∃ constant ∈ module.texts, constant.name = name ∧ constant.content.length = size
  | .param name type => (name, type) ∈ function.params
  | .slot name content => .alloca name content ∈ function.insts
  | .result number type => ∃ inst ∈ function.insts, inst.result? = some (number, type)

/-- The types that an operation works on. -/
def Arithmetic.WorksOn (type : LType) : Arithmetic → Prop
  | .add | .sub | .mul | .sdiv | .srem | .xor => ∃ bits, type = .int bits
  | .fadd | .fsub | .fmul | .fdiv | .frem => type = .double

/-- The arguments that a function takes: one for each parameter, and more only if it is variadic,
none of them a truth value. -/
def FunctionType.Takes (type : FunctionType) (arguments : List Operand) : Prop :=
  ∃ fixed more, arguments = fixed ++ more ∧ fixed.map Operand.type = type.params ∧
    (more ≠ [] → type.variadic = true) ∧ ∀ argument ∈ more, argument.type ≠ .int 1

/-- The operands of an instruction have the types that go together. -/
def Inst.Agrees (module : Module) : Inst → Prop
  | .alloca _ content => content ≠ .void
  | .load _ content address => content ≠ .void ∧ address.type = .pointer content
  | .store value address => address.type = .pointer value.type
  | .arithmetic _ operation left right => left.type = right.type ∧ operation.WorksOn left.type
  | .icmp _ _ left right => left.type = right.type ∧ left.type.IsComparable
  | .fcmp _ _ left right => left.type = right.type ∧ left.type = .double
  | .fneg _ operand => operand.type = .double
  | .zext _ operand target =>
      ∃ narrow wide, operand.type = .int narrow ∧ target = .int wide ∧ narrow < wide
  | .call number callee type arguments =>
      module.types.lookup callee = some type ∧ type.Takes arguments ∧
        (number.isSome ↔ type.result ≠ .void)

/-- The operand of a terminator has the type that is asked for. -/
def Terminator.Agrees (function : Function) : Terminator → Prop
  | .br _ => True
  | .condBr condition _ _ => condition.type = .int 1
  | .ret none => function.result = .void
  | .ret (some value) => function.result = value.type ∧ value.type ≠ .void

/-- An instruction is well typed. -/
structure Inst.WellTyped (module : Module) (function : Function) (inst : Inst) : Prop where
  /-- The types go together. -/
  agrees : inst.Agrees module
  /-- The operands are defined. -/
  refers : ∀ operand ∈ inst.operands, operand.Refers module function

/-- A terminator is well typed. -/
structure Terminator.WellTyped (module : Module) (function : Function) (terminator : Terminator) :
    Prop where
  /-- The type is right. -/
  agrees : terminator.Agrees function
  /-- The operands are defined. -/
  refers : ∀ operand ∈ terminator.operands, operand.Refers module function

/-- The code of a function is well typed. -/
def Function.WellTyped (module : Module) (function : Function) : Prop :=
  ∀ block ∈ function.blocks, (∀ inst ∈ block.insts, inst.WellTyped module function) ∧
    ∀ terminator ∈ block.terminator, terminator.WellTyped module function

/-- The functions of a module are well typed. -/
def Module.WellTyped (module : Module) : Prop :=
  ∀ function ∈ module.functions, function.WellTyped module

/-! ### Operands -/

/-- The type of the operand that stands for a value. -/
def typeOf : Value → LType
  | .slot place => .pointer (.ofBasic place.type)
  | value => .ofBasic value.type

/-- The type of a function of the intermediate code. -/
def signatureType (signature : Signature) : FunctionType :=
  ⟨signature.params.map LType.ofBasic, .ofBasic signature.result, signature.variadic⟩

/-- An operand has the type of a value and refers to something. -/
structure Fits (module : Module) (code : Function) (value : Value) (operand : Operand) : Prop where
  /-- The type is that of the value. -/
  type_eq : operand.type = typeOf value
  /-- The operand is defined. -/
  refers : operand.Refers module code

/-- What the code of a function may rely on. -/
structure Sited (env : Surroundings) (generated : Module) : Prop where
  /-- The functions have results that can be there. -/
  results : ∀ function ∈ env.module.functions, function.result ≠ .invalid
  /-- The functions are there with their types. -/
  functions : ∀ function ∈ env.module.functions,
    generated.types.lookup (Surroundings.symbol env.wraps function.name) =
      some (signatureType function.signature)
  /-- Only the output function is declared. -/
  externals : ∀ external ∈ env.module.externals, external = formatter ∧
    generated.types.lookup external.name = some (signatureType external.signature)
  /-- The string constants are there with their lengths. -/
  texts : ∀ index content, env.module.strings[index]? = some content →
    ∃ constant ∈ generated.texts, constant.name = stringName index ∧
      constant.content.length = content.length + 1

section Operands

variable {env : Surroundings} {generated : Module} {code : Function} {source : IR.Function}
  {earlier later : List Instr} {instr : Instr} {operands : List (Nat × Operand)}

theorem type_of_yields {value : Value} {type : BasicType} (yields : value.Yields type) :
    value.type = type := by
  cases value with
  | slot | stray => exact yields.elim
  | constant | param | temp | string => exact yields.2

theorem typeOf_of_yields {value : Value} {type : BasicType} (yields : value.Yields type) :
    typeOf value = .ofBasic type := by
  cases value with
  | slot | stray => exact yields.elim
  | constant | param | temp | string => exact congrArg LType.ofBasic yields.2

/-- What is looked up for an operand of an instruction fits it. -/
theorem fits_of_operand? (sited : Sited env generated) (grounded : source.Grounded)
    (split : source.instrs = earlier ++ instr :: later)
    (stands : Stands (Fits generated code) (standing source earlier) operands) {value : Value}
    (read : value ∈ instr.operands) {operand : Operand}
    (found : env.operand? operands value = some operand) : Fits generated code value operand := by
  have numbered : ∀ id, value.id? = some id → operands.lookup id = some operand →
      Fits generated code value operand := by
    intro id isId looked
    obtain ⟨other, there, fits⟩ := stands value (mem_standing grounded split read isId) id isId
    obtain rfl := Option.some.inj (looked.symm.trans there)
    exact fits
  cases value with
  | constant constant =>
      cases constant with
      | nothing => cases found
      | int | float | bool =>
          obtain rfl := Option.some.inj found
          exact ⟨rfl, trivial⟩
  | stray => cases found
  | string index =>
      obtain ⟨content, there, rfl⟩ := Option.map_eq_some_iff.mp found
      exact ⟨rfl, sited.texts index content there⟩
  | param | slot | temp => exact numbered _ rfl found

end Operands

/-! ### Instructions -/

section Operations

variable {number : Nat} {left right operand : Operand} {type : LType} {inst : Inst}

theorem BinaryInst.operands_eq {opcode : BinaryOpcode}
    (made : BinaryInst number left right opcode type inst) :
    inst.operands = [left, right] ∧ inst.result? = some (number, type) := by
  cases made <;> exact ⟨rfl, rfl⟩

theorem worksOn_of_chosen {opcode : BinaryOpcode} {basic : BasicType} {operator : TokenKind}
    {operation : Arithmetic} (chosen : binaryOpcode? basic operator = some opcode)
    (isOperation : arithmetic? opcode = some operation) :
    opcode.isComparison = false ∧ operation.WorksOn (.ofBasic basic) := by
  unfold binaryOpcode? at chosen
  split at chosen <;> cases chosen <;> cases isOperation <;>
    exact ⟨rfl, by simp [Arithmetic.WorksOn, LType.ofBasic]⟩

theorem isComparison_of_intPredicate {opcode : BinaryOpcode} {predicate : IntPredicate}
    (isPredicate : intPredicate? opcode = some predicate) : opcode.isComparison = true := by
  cases opcode with
  | eq | ne | lt | le | gt | ge => rfl
  | add | sub | mul | div | mod | fadd | fsub | fmul | fdiv | fmod | feq | fne | flt | fle
      | fgt | fge
    | unlisted => cases isPredicate

theorem isComparison_of_floatPredicate {opcode : BinaryOpcode} {predicate : FloatPredicate}
    (isPredicate : floatPredicate? opcode = some predicate) : opcode.isComparison = true := by
  cases opcode with
  | feq | fne | flt | fle | fgt | fge => rfl
  | add | sub | mul | div | mod | fadd | fsub | fmul | fdiv | fmod | eq | ne | lt | le | gt | ge
    | unlisted => cases isPredicate

/-- The operation that lowering chooses for operands of a type works on them. -/
theorem BinaryInst.agrees {opcode : BinaryOpcode} {basic : BasicType} {operator : TokenKind}
    (made : BinaryInst number left right opcode type inst)
    (chosen : binaryOpcode? basic operator = some opcode) (leftType : left.type = .ofBasic basic)
    (rightType : right.type = .ofBasic basic) (module : Module) :
    type = .ofBasic (if opcode.isComparison then .bool else basic) ∧ inst.Agrees module := by
  have same : left.type = right.type := leftType.trans rightType.symm
  cases made with
  | arithmetic isOperation =>
      obtain ⟨computes, worksOn⟩ := worksOn_of_chosen chosen isOperation
      rw [leftType, computes]
      exact ⟨rfl, same, leftType.symm ▸ worksOn⟩
  | icmp isPredicate comparable =>
      rw [isComparison_of_intPredicate isPredicate]
      exact ⟨rfl, same, comparable⟩
  | fcmp isPredicate isDouble =>
      rw [isComparison_of_floatPredicate isPredicate]
      exact ⟨rfl, same, isDouble⟩

theorem UnaryInst.operands_subset {opcode : UnaryOpcode}
    (made : UnaryInst number operand opcode type inst) :
    inst.result? = some (number, type) ∧
      ∀ other ∈ inst.operands, other = operand ∨ other = .int 0 ∨ other = .bool true := by
  cases made with
  | neg => exact ⟨rfl, by simp [Inst.operands]⟩
  | fneg => exact ⟨rfl, by simp [Inst.operands]⟩
  | not => exact ⟨rfl, by simp [Inst.operands]⟩

theorem UnaryInst.agrees {opcode : UnaryOpcode} {basic : BasicType} {operator : TokenKind}
    (made : UnaryInst number operand opcode type inst)
    (chosen : unaryOpcode? basic operator = some opcode) (isType : operand.type = .ofBasic basic)
    (module : Module) : type = .ofBasic basic ∧ inst.Agrees module := by
  unfold unaryOpcode? at chosen
  split at chosen
  · cases chosen
    cases made
    exact ⟨rfl, isType.symm, 32, rfl⟩
  · cases chosen
    cases made
    exact ⟨isType, isType⟩
  · cases chosen
    cases made
    exact ⟨isType, isType, 1, isType⟩
  · cases chosen

end Operations

section Calls

variable {env : Surroundings} {operands : List (Nat × Operand)} {fixed next last : Nat}
  {values : List Value} {insts : List Inst} {passed : List Operand}

/-- What belongs to parameters is passed as it is. -/
theorem Passes.fixed_eq (passes : Passes env operands fixed next values insts passed last)
    (all : values.length ≤ fixed) :
    insts = [] ∧ last = next ∧
      List.Forall₂ (fun value operand => env.operand? operands value = some operand) values
        passed := by
  induction passes with
  | nil => exact ⟨rfl, rfl, .nil⟩
  | plain _ found _ ih =>
      rw [List.length_cons] at all
      obtain ⟨none_, same, rest⟩ := ih (by omega)
      exact ⟨none_, same, .cons found rest⟩
  | widened => simp at all

/-- What is printed is passed behind its format, and a truth value as a number. -/
theorem Passes.printed {format value : Value}
    (passes : Passes env operands 1 next [format, value] insts passed last) :
    ∃ first second, env.operand? operands format = some first ∧
      env.operand? operands value = some second ∧
      (value.type ≠ .bool ∧ last = next ∧ insts = [] ∧ passed = [first, second] ∨
        value.type = .bool ∧ last = next + 1 ∧ insts = [.zext next second (.int 32)] ∧
          passed = [first, .result next (.int 32)]) := by
  cases passes with
  | plain _ isFormat rest =>
      cases rest with
      | plain isPlain isValue none_ =>
          cases none_
          exact ⟨_, _, isFormat, isValue, .inl ⟨fun isBool => isPlain ⟨rfl, isBool⟩, rfl, rfl, rfl⟩⟩
      | widened isBool isValue none_ =>
          cases none_
          exact ⟨_, _, isFormat, isValue, .inr ⟨isBool, rfl, rfl, rfl⟩⟩

theorem callee_defined {name symbol : Bytes} {type : FunctionType}
    (called : env.callee ⟨.defined, name⟩ = .ok (symbol, type)) :
    ∃ function, env.module.function? name = some function ∧
      symbol = Surroundings.symbol env.wraps function.name ∧
      type = signatureType function.signature := by
  unfold Surroundings.callee at called
  dsimp only at called
  cases found : env.module.function? name with
  | none =>
      rw [found] at called
      cases called
  | some function =>
      rw [found] at called
      cases called
      exact ⟨function, rfl, rfl, rfl⟩

theorem callee_external {name symbol : Bytes} {type : FunctionType}
    (called : env.callee ⟨.external, name⟩ = .ok (symbol, type)) :
    ∃ external, env.module.external? name = some external ∧ symbol = external.name ∧
      type = signatureType external.signature := by
  unfold Surroundings.callee at called
  dsimp only at called
  cases found : env.module.external? name with
  | none =>
      rw [found] at called
      cases called
  | some external =>
      rw [found] at called
      cases called
      exact ⟨external, rfl, rfl, rfl⟩

end Calls

section Emitted

variable {env : Surroundings} {generated : Module} {code : Function} {source : IR.Function}
  {earlier later : List Instr} {instr : Instr} {locals last : Locals} {insts : List Inst}
  {terminator : Option Terminator}

/-- The arguments of a call that have the types of its parameters. -/
theorem fits_arguments {fits : Value → Operand → Prop} {values : List Value} {passed : List Operand}
    (each : List.Forall₂ (fun value operand => env.operand? locals.operands value = some operand)
      values passed)
    (fit : ∀ value ∈ values, ∀ operand, env.operand? locals.operands value = some operand →
      fits value operand) : List.Forall₂ fits values passed :=
  forall₂_imp_mem each fun value member operand found => fit value member operand found

theorem types_of_fits {values : List Value} {passed : List Operand}
    (fits : List.Forall₂ (Fits generated code) values passed)
    (yields : ∀ value ∈ values, value.Yields value.type) :
    passed.map Operand.type = (values.map Value.type).map LType.ofBasic ∧
      ∀ operand ∈ passed, operand.Refers generated code := by
  induction fits with
  | nil => simp
  | cons first _ ih =>
      rw [List.forall_mem_cons] at yields
      obtain ⟨types, refers⟩ := ih yields.2
      refine ⟨?_, List.forall_mem_cons.mpr ⟨first.refers, refers⟩⟩
      rw [List.map_cons, List.map_cons, List.map_cons, types, first.type_eq,
        typeOf_of_yields yields.1]

theorem ofBasic_eq_void_iff {type : BasicType} (valid : type ≠ .invalid) :
    LType.ofBasic type = .void ↔ type = .void := by
  cases type with
  | invalid => exact absurd rfl valid
  | void | int | float | bool | string => simp [LType.ofBasic]

theorem ofBasic_eq_bool {type : BasicType} : LType.ofBasic type = .int 1 ↔ type = .bool := by
  cases type with
  | void | invalid | int | float | bool | string => simp [LType.ofBasic]

theorem ofBasic_ne_void {type : BasicType} (isValue : type.IsValue) : LType.ofBasic type ≠ .void :=
  fun same => isValue.1 ((ofBasic_eq_void_iff isValue.2).mp same)

theorem typeOf_of_holds {value : Value} {type : BasicType} (holds : value.Holds type) :
    type.IsValue ∧ typeOf value = .pointer (.ofBasic type) := by
  cases value with
  | slot place => exact ⟨holds.1, congrArg (LType.pointer ∘ LType.ofBasic) holds.2⟩
  | constant | param | temp | string | stray => exact holds.elim

/-- What is emitted is well typed, and so is what stands for the result. -/
structure Typed (generated : Module) (code : Function) (instr : Instr) (insts : List Inst)
    (terminator : Option Terminator) (operands : List (Nat × Operand)) : Prop where
  /-- The instructions are well typed. -/
  insts : ∀ inst ∈ insts, inst.WellTyped generated code
  /-- The terminator is well typed. -/
  terminator : ∀ ending ∈ terminator, ending.WellTyped generated code
  /-- The operand that comes to stand for the result fits it. -/
  fits : ∀ dest, instr.result? = some (.temp dest) →
    ∃ operand, operands.head? = some (dest.id, operand) ∧ Fits generated code (.temp dest) operand

theorem Typed.of_result {dest : Temp} {inst : Inst} {number : Nat} {operands : List (Nat × Operand)}
    (isResult : instr.result? = some (.temp dest)) (typed : inst.WellTyped generated code)
    (made : inst.result? = some (number, .ofBasic dest.type)) (member : inst ∈ code.insts) :
    Typed generated code instr [inst] none
      ((dest.id, .result number (.ofBasic dest.type)) :: operands) where
  insts := by simpa using typed
  terminator := by simp
  fits := by
    intro other isOther
    obtain rfl : dest = other := by
      injection Option.some.inj (isResult.symm.trans isOther)
    exact ⟨_, rfl, rfl, inst, member, made⟩

section Emits

variable (sited : Sited env generated) (grounded : source.Grounded)
  (split : source.instrs = earlier ++ instr :: later)
  (stands : Stands (Fits generated code) (standing source earlier) locals.operands)
include sited grounded split stands

/-- A call of a defined function. -/
theorem typed_of_defined {dest : Option Temp} {name symbol : Bytes} {values : List Value}
    {type : FunctionType} {passed : List Operand} {next : Nat} {number : Option Nat}
    (isCall : instr = .call dest ⟨.defined, name⟩ values)
    (typed : instr.WellTyped env.module.interface source.result)
    (called : env.callee ⟨.defined, name⟩ = .ok (symbol, type))
    (passes : Passes env locals.operands type.params.length locals.next values insts passed next)
    (numbered : number = if type.result = .void then none else some next) (last : Nat)
    (among : insts ++ [Inst.call number symbol type passed] ⊆ code.insts) :
    Typed generated code instr (insts ++ [Inst.call number symbol type passed]) none
      (locals.receive dest number type.result last).operands := by
  subst isCall
  obtain ⟨signature, known, types, yields, result⟩ := typed
  obtain ⟨function, found, rfl, rfl⟩ := callee_defined called
  obtain rfl : function.signature = signature := by
    rw [Module.interface] at known
    simpa [found] using known
  have own := List.mem_of_find?_eq_some found
  have length : values.length = (signatureType function.signature).params.length := by
    rw [signatureType, List.length_map, ← types, List.length_map]
  obtain ⟨rfl, rfl, each⟩ := passes.fixed_eq length.le
  have fits := fits_arguments each fun value member operand looked =>
    fits_of_operand? sited grounded split stands member looked
  obtain ⟨passedTypes, refers⟩ := types_of_fits fits yields
  have void : (signatureType function.signature).result = .void ↔ function.result = .void :=
    ofBasic_eq_void_iff (sited.results function own)
  have agrees : (Inst.call number (Surroundings.symbol env.wraps function.name)
      (signatureType function.signature) passed).Agrees generated := by
    refine ⟨sited.functions function own, ⟨passed, [], by simp, ?_, by simp, by simp⟩, ?_⟩
    · rw [passedTypes, types]
      rfl
    · simp [numbered]
  refine ⟨fun inst member => ?_, by simp, fun temp isResult => ?_⟩
  · obtain rfl := List.mem_singleton.mp member
    exact ⟨agrees, refers⟩
  · obtain ⟨_, rfl, same⟩ := Option.map_eq_some_iff.mp isResult
    cases same
    have filled : function.result ≠ .void ∧ temp.type = function.result := by
      rw [Option.map_some] at result
      split at result
      · cases result
      · exact ⟨‹_›, Option.some.inj result⟩
    rw [if_neg (void.not.mpr filled.1)] at numbered
    subst numbered
    refine ⟨_, rfl, (congrArg LType.ofBasic filled.2).symm, ?_⟩
    exact ⟨_, among List.mem_cons_self, rfl⟩

/-- A call of the output function. -/
theorem typed_of_external {dest : Option Temp} {name symbol : Bytes} {values : List Value}
    {type : FunctionType} {passed : List Operand} {next : Nat}
    (isCall : instr = .call dest ⟨.external, name⟩ values)
    (typed : instr.WellTyped env.module.interface source.result)
    (called : env.callee ⟨.external, name⟩ = .ok (symbol, type))
    (passes : Passes env locals.operands type.params.length locals.next values insts passed next)
    (operands : List (Nat × Operand))
    (among : insts ++ [Inst.call (some next) symbol type passed] ⊆ code.insts) :
    Typed generated code instr (insts ++ [Inst.call (some next) symbol type passed]) none
      operands := by
  subst isCall
  obtain ⟨rfl, rfl, format, value, basic, rfl, isFormat, isValue, -⟩ := typed
  obtain ⟨external, found, rfl, rfl⟩ := callee_external called
  obtain ⟨rfl, listed⟩ := sited.externals external (List.mem_of_find?_eq_some found)
  obtain ⟨first, second, formatFound, valueFound, way⟩ := passes.printed
  have formatFits :=
    fits_of_operand? sited grounded split stands (by simp [Instr.operands]) formatFound
  have valueFits :=
    fits_of_operand? sited grounded split stands (by simp [Instr.operands]) valueFound
  have firstType : first.type = .pointer (.int 8) :=
    formatFits.type_eq.trans (typeOf_of_yields isFormat)
  have secondType : second.type = .ofBasic basic :=
    valueFits.type_eq.trans (typeOf_of_yields isValue)
  -- What is passed behind the format is never a truth value.
  have agrees : ∀ other : Operand, other.type ≠ .int 1 →
      (Inst.call (some next) formatter.name (signatureType formatter.signature)
        [first, other]).Agrees generated := by
    intro other notBool
    refine ⟨listed, ⟨[first], [other], rfl, ?_, fun _ => rfl, by simpa using notBool⟩, ?_⟩
    · rw [List.map_singleton, firstType]
      rfl
    · exact ⟨fun _ => by decide, fun _ => rfl⟩
  have nothing : ∀ temp, (Instr.call none ⟨.external, formatter.name⟩ [format, value]).result? ≠
      some (.temp temp) := fun temp isResult => by cases isResult
  rcases way with ⟨notBool, rfl, rfl, rfl⟩ | ⟨isBool, rfl, rfl, rfl⟩
  · refine ⟨fun inst member => ?_, by simp, fun temp isResult => absurd isResult (nothing temp)⟩
    obtain rfl := List.mem_singleton.mp member
    refine ⟨agrees second ?_, by simpa [Inst.operands] using ⟨formatFits.refers, valueFits.refers⟩⟩
    rw [secondType]
    exact fun same => notBool ((type_of_yields isValue).trans (ofBasic_eq_bool.mp same))
  · obtain rfl : basic = .bool := (type_of_yields isValue).symm.trans isBool
    refine ⟨fun inst member => ?_, by simp, fun temp isResult => absurd isResult (nothing temp)⟩
    rcases List.mem_cons.mp member with rfl | isCall
    · exact ⟨⟨1, 32, secondType, rfl, by decide⟩, by simpa [Inst.operands] using valueFits.refers⟩
    · obtain rfl := List.mem_singleton.mp isCall
      have widened : (Operand.result locals.next (.int 32)).Refers generated code :=
        ⟨_, among List.mem_cons_self, rfl⟩
      exact ⟨agrees _ (by simp [Operand.type]), by
        simpa [Inst.operands] using ⟨formatFits.refers, widened⟩⟩

/-- **What an instruction becomes is well typed.** -/
theorem Emits.typed (typed : instr.WellTyped env.module.interface source.result)
    (result : code.result = .ofBasic source.result)
    (emits : Emits env locals instr insts terminator last) (among : insts ⊆ code.insts) :
    Typed generated code instr insts terminator last.operands := by
  have look : ∀ value ∈ instr.operands, ∀ operand, env.operand? locals.operands value =
    some operand →
      Fits generated code value operand := fun value read operand found =>
    fits_of_operand? sited grounded split stands read found
  cases emits with
  | alloca => exact ⟨by simp, by simp, fun dest isResult => by cases isResult⟩
  | copy found =>
      refine ⟨by simp, by simp, fun dest isResult => ?_⟩
      cases isResult
      have fits := look _ List.mem_cons_self _ found
      exact ⟨_, rfl, fits.type_eq.trans (typeOf_of_yields typed), fits.refers⟩
  | load found =>
      have fits := look _ List.mem_cons_self _ found
      obtain ⟨isValue, isType⟩ := typeOf_of_holds typed
      refine .of_result rfl ⟨⟨ofBasic_ne_void isValue, fits.type_eq.trans isType⟩, ?_⟩ rfl
        (among List.mem_cons_self)
      simpa [Inst.operands] using fits.refers
  | store isPlace isContent same =>
      have place := look _ (by simp [Instr.operands]) _ isPlace
      have content := look _ (by simp [Instr.operands]) _ isContent
      refine ⟨fun inst member => ?_, by simp, fun dest isResult => by cases isResult⟩
      obtain rfl := List.mem_singleton.mp member
      exact ⟨same, by simpa [Inst.operands] using ⟨content.refers, place.refers⟩⟩
  | binary isLeft isRight made =>
      have left := look _ (by simp [Instr.operands]) _ isLeft
      have right := look _ (by simp [Instr.operands]) _ isRight
      obtain ⟨basic, operator, leftYields, rightYields, chosen, isType⟩ := typed
      obtain ⟨operands, isResult⟩ := made.operands_eq
      obtain ⟨rfl, agrees⟩ := made.agrees chosen (left.type_eq.trans (typeOf_of_yields leftYields))
        (right.type_eq.trans (typeOf_of_yields rightYields)) generated
      rw [← isType] at isResult ⊢
      refine .of_result rfl ⟨agrees, ?_⟩ isResult (among List.mem_cons_self)
      simpa [operands] using ⟨left.refers, right.refers⟩
  | unary found made =>
      have fits := look _ List.mem_cons_self _ found
      obtain ⟨operator, yields, chosen⟩ := typed
      obtain ⟨isResult, operands⟩ := made.operands_subset
      obtain ⟨rfl, agrees⟩ :=
        made.agrees chosen (fits.type_eq.trans (typeOf_of_yields yields)) generated
      refine .of_result rfl ⟨agrees, fun operand member => ?_⟩ isResult (among List.mem_cons_self)
      rcases operands operand member with rfl | rfl | rfl
      · exact fits.refers
      · exact trivial
      · exact trivial
  | @call dest callee values name type insts passed next called passes notVoid =>
      obtain ⟨linkage, callee⟩ := callee
      cases linkage with
      | defined =>
          exact typed_of_defined sited grounded split stands rfl typed called passes
            (if_neg notVoid).symm _ among
      | external =>
          exact typed_of_external sited grounded split stands rfl typed called passes _ among
      | unknown => exact typed.elim
  | @command dest callee values name type insts passed next called passes isVoid =>
      obtain ⟨linkage, callee⟩ := callee
      cases linkage with
      | defined =>
          have emitted := typed_of_defined sited grounded split stands rfl typed called passes
            (if_pos isVoid).symm next among
          rw [isVoid] at emitted
          exact emitted
      | external =>
          obtain ⟨external, found, -, rfl⟩ := callee_external called
          obtain ⟨rfl, -⟩ := sited.externals external (List.mem_of_find?_eq_some found)
          exact absurd isVoid (by decide)
      | unknown => exact typed.elim
  | jump =>
      refine ⟨by simp, fun ending isEnd => ?_, fun dest isResult => by cases isResult⟩
      cases isEnd
      exact ⟨trivial, by simp [Terminator.operands]⟩
  | branch found =>
      have fits := look _ List.mem_cons_self _ found
      refine ⟨by simp, fun ending isEnd => ?_, fun dest isResult => by cases isResult⟩
      cases isEnd
      exact ⟨fits.type_eq.trans (typeOf_of_yields typed), by
        simpa [Terminator.operands] using fits.refers⟩
  | leave =>
      refine ⟨by simp, fun ending isEnd => ?_, fun dest isResult => by cases isResult⟩
      cases isEnd
      exact ⟨result.trans (congrArg LType.ofBasic typed), by simp [Terminator.operands]⟩
  | ret found =>
      have fits := look _ List.mem_cons_self _ found
      have isType := fits.type_eq.trans (typeOf_of_yields typed.2)
      refine ⟨by simp, fun ending isEnd => ?_, fun dest isResult => by cases isResult⟩
      cases isEnd
      refine ⟨⟨result.trans isType.symm, ?_⟩, by simpa [Terminator.operands] using fits.refers⟩
      rw [isType]
      exact ofBasic_ne_void (type_of_yields typed.2 ▸ typed.2.isValue)

end Emits

/-! ### Functions -/

section Functions

variable (sited : Sited env generated) (grounded : source.Grounded)
  (typed : ∀ instr ∈ source.instrs, instr.WellTyped env.module.interface source.result)
  (result : code.result = .ofBasic source.result)
include sited grounded typed result

/-- Fitting operands keep standing for values. -/
theorem keeps_fits : Keeps env source code.insts fun earlier locals =>
    Stands (Fits generated code) (standing source earlier) locals.operands := by
  intro earlier instr later locals insts terminator last split emits among stands
  have here :=
    emits.typed sited grounded split stands (typed instr (by rw [split]; simp)) result among
  refine stands.step grounded split emits fun dest isResult operand same => ?_
  obtain ⟨other, first, fits⟩ := here.fits dest isResult
  rw [same] at first
  cases first
  exact fits

theorem EmitsAll.wellTyped {instrs : List Instr} {before : Option Terminator}
    (split : source.instrs = earlier ++ (instrs ++ later))
    (emits : EmitsAll env locals before instrs insts terminator last) (among : insts ⊆ code.insts)
    (stands : Stands (Fits generated code) (standing source earlier) locals.operands)
    (beforeTyped : ∀ ending ∈ before, ending.WellTyped generated code) :
    (∀ inst ∈ insts, inst.WellTyped generated code) ∧
      ∀ ending ∈ terminator, ending.WellTyped generated code := by
  induction emits generalizing earlier with
  | nil => exact ⟨by simp, beforeTyped⟩
  | @cons locals _ _ before own _ instr instrs insts others first rest ih =>
      have here : source.instrs = earlier ++ instr :: (instrs ++ later) := by simpa using split
      have amongFirst : insts ⊆ code.insts :=
        fun inst member => among (List.mem_append_left _ member)
      have firstTyped :=
        first.typed sited grounded here stands (typed instr (by rw [here]; simp)) result
        amongFirst
      have next := keeps_fits sited grounded typed result _ _ _ _ _ _ _ here first amongFirst stands
      have restTyped :=
        ih (by simpa using split) (fun inst member => among (List.mem_append_right _ member))
        next (by
          intro ending isEnd
          rcases Option.or_eq_some_iff.mp isEnd with isOwn | ⟨-, isBefore⟩
          · exact firstTyped.terminator ending isOwn
          · exact beforeTyped ending isBefore)
      refine ⟨fun inst member => ?_, restTyped.2⟩
      rcases List.mem_append.mp member with isFirst | isLater
      · exact firstTyped.insts inst isFirst
      · exact restTyped.1 inst isLater

end Functions

end Emitted

/-- **The code of a well-typed function is well typed.** -/
theorem EmitsFunction.wellTyped {module : IR.Module} {generated : Module} {wraps : Bool}
    {source : IR.Function} {code : Function} (emits : EmitsFunction module wraps source code)
    (sited : Sited ⟨module, wraps, source⟩ generated) (grounded : source.Grounded)
    (typed : ∀ instr ∈ source.instrs, instr.WellTyped module.interface source.result) :
    code.WellTyped generated := by
  have start :
    Stands (Fits generated code) (standing source []) (Locals.start source).operands := by
    refine Stands.start grounded (fun place own => ⟨rfl, ?_⟩) (fun place own => ⟨rfl, ?_⟩)
    · rw [Operand.Refers, emits.params_eq]
      exact List.mem_map.mpr ⟨place, own, rfl⟩
    · exact emits.allocas_subset (List.mem_map.mpr ⟨place, own, rfl⟩)
  have made := emits.made (keeps_fits sited grounded typed emits.result_eq)
    (fun earlier locals block stands => by
      rw [Locals.beginBlock]
      split <;> exact stands) start
  intro block member
  obtain ⟨origin, -, first, slotsOnly, earlier, later, locals, insts, last, split, stands, emitsAll,
    same, -⟩ := made block member
  have among : insts ⊆ code.insts := fun inst within =>
    List.mem_flatMap.mpr ⟨block, member, same ▸ List.mem_append_right _ within⟩
  obtain ⟨instsTyped, endTyped⟩ :=
    emitsAll.wellTyped sited grounded typed emits.result_eq split among
    stands (by simp)
  refine ⟨fun inst within => ?_, endTyped⟩
  rw [same] at within
  rcases List.mem_append.mp within with isSlot | isLater
  · obtain ⟨place, own, rfl⟩ := List.mem_map.mp (slotsOnly isSlot)
    have isValue : place.type.IsValue := typed _ (slot_mem_slots_iff.mp own)
    exact ⟨ofBasic_ne_void isValue, by simp [Inst.operands]⟩
  · exact instsTyped inst isLater

/-! ### Modules -/

section Modules

variable {options : Options} {module : IR.Module} {generated : Module} {codes : List Function}

theorem EmitsFunction.type_eq {wraps : Bool} {source : IR.Function} {code : Function}
    (emits : EmitsFunction module wraps source code) :
    code.type = signatureType source.signature := by
  rw [Function.type, emits.params_eq, emits.result_eq, List.map_map]
  simp [signatureType, IR.Function.signature, Function.comp_def]

/-- The functions of a module are known by different names. -/
theorem EmitsModule.types_nodup (emits : EmitsModule options module generated codes)
    (named : Named module) : (generated.types.map Prod.fst).Nodup := by
  have once := emits.globalNames_nodup named
  rw [Module.globalNames, List.append_assoc] at once
  simpa [Module.types, Function.comp_def] using (List.nodup_append.mp once).2.1

/-- The code of a function finds what it refers to. -/
theorem EmitsModule.sited (emits : EmitsModule options module generated codes)
    (named : Named module)
    (valid : ∀ function ∈ module.functions, function.result ≠ .invalid) (source : IR.Function) :
    Sited ⟨module, wrapsEntry options module, source⟩ generated where
  results := valid
  functions := by
    intro function member
    obtain ⟨code, there, emitted⟩ := exists_of_forall₂ emits.functions.flip member
    have within : code ∈ generated.functions := by
      rcases emits.wrapped with ⟨-, same⟩ | ⟨-, entry, -, same⟩
      · exact same ▸ there
      · exact same ▸ List.mem_append_left _ there
    refine lookup_of_mem (emits.types_nodup named) (List.mem_append_right _ ?_)
    exact List.mem_map.mpr ⟨code, within, by rw [emitted.name_eq, emitted.type_eq]⟩
  externals := by
    intro external member
    refine ⟨?_, lookup_of_mem (emits.types_nodup named) (List.mem_append_left _ ?_)⟩
    · rcases named.externals with none_ | one
      · simp [none_] at member
      · simpa [one] using member
    · rw [emits.declarations_eq, List.map_map]
      exact List.mem_map.mpr ⟨external, member, rfl⟩
  texts := by
    intro index content there
    refine ⟨⟨stringName index, content ++ [0]⟩, ?_, rfl, by simp⟩
    rw [emits.texts_eq]
    exact List.mem_map.mpr ⟨(content, index), List.mk_mem_zipIdx_iff_getElem?.mpr there, rfl⟩

/-- A wrapper is well typed exactly if it has no arguments to pass. -/
theorem mainWrapper_wellTyped_iff {env : Surroundings} {entry : IR.Function}
    (sited : Sited env generated)
    (wraps : env.wraps = true) (member : entry ∈ env.module.functions) :
    (mainWrapper true entry).WellTyped generated ↔ entry.params = [] := by
  have listed := sited.functions entry member
  rw [wraps] at listed
  have void := ofBasic_eq_void_iff (sited.results entry member)
  have type :
    (⟨entry.params.map fun place => LType.ofBasic place.type, LType.ofBasic entry.result, false⟩ :
      FunctionType) = signatureType entry.signature := by
    simp [signatureType, IR.Function.signature, Function.comp_def]
  constructor
  · intro typed
    obtain ⟨⟨-, ⟨fixed, more, all, types, -⟩, -⟩, -⟩ :=
      (typed _ List.mem_cons_self).1 _ List.mem_cons_self
    obtain ⟨rfl, -⟩ := List.append_eq_nil_iff.mp all.symm
    exact List.map_eq_nil_iff.mp types.symm
  · intro none_
    have call : (Inst.call (if entry.result == .void then none else some 0)
        (Surroundings.symbol true entry.name) (signatureType entry.signature) []).WellTyped
        generated (mainWrapper true entry) := by
      refine ⟨⟨listed, ⟨[], [], rfl, ?_, by simp, by simp⟩, ?_⟩, by simp [Inst.operands]⟩
      · simp [signatureType, IR.Function.signature, none_]
      · rw [Ne,
          show (signatureType entry.signature).result = LType.ofBasic entry.result from rfl, void]
        by_cases isVoid : entry.result = .void <;> simp [isVoid]
    intro block isBlock
    obtain rfl := List.mem_singleton.mp isBlock
    refine ⟨fun inst isInst => ?_, fun ending isEnd => ?_⟩
    · obtain rfl := List.mem_singleton.mp isInst
      rw [type]
      exact call
    · obtain rfl := Option.some.inj isEnd
      by_cases isInt : entry.result = .int
      · simp only [isInt, BEq.rfl, if_true]
        refine ⟨⟨rfl, by decide⟩, ?_⟩
        intro operand isOperand
        obtain rfl := List.mem_singleton.mp isOperand
        refine ⟨_, List.mem_flatMap.mpr ⟨_, List.mem_cons_self, List.mem_cons_self⟩, ?_⟩
        simp [Inst.result?, isInt, LType.ofBasic]
      · simp only [beq_eq_false_iff_ne.mpr isInt, Bool.false_eq_true, if_false]
        exact ⟨⟨rfl, by decide⟩, by simp [Terminator.operands, Operand.Refers]⟩

/-- A wrapper is added around an entry function with parameters, to which it passes nothing. -/
def WrapsParams (options : Options) (module : IR.Module) : Prop :=
  wrapsEntry options module = true ∧
    ∃ entry, module.function? module.entry = some entry ∧ entry.params ≠ []

/-- **Generated code of well-typed modules is well typed unless a wrapper has arguments to
pass.** -/
theorem EmitsModule.wellTyped_iff (emits : EmitsModule options module generated codes)
    (named : Named module) (valid : ∀ function ∈ module.functions, function.result ≠ .invalid)
    (typed : module.WellTyped) (grounded : ∀ function ∈ module.functions, function.Grounded) :
    generated.WellTyped ↔ ¬ WrapsParams options module := by
  have own : ∀ code ∈ codes, code.WellTyped generated := by
    intro code member
    obtain ⟨source, there, emitted⟩ := exists_of_forall₂ emits.functions member
    obtain ⟨types, sourceTyped⟩ := typed source there
    exact emitted.wellTyped (emits.sited named valid source) (grounded source there)
      fun instr within => (sourceTyped.instrs instr within).typed
  rcases emits.wrapped with ⟨unwrapped, same⟩ | ⟨wraps, entry, found, same⟩
  · refine iff_of_true (fun function member => own function (same ▸ member)) ?_
    rintro ⟨wraps, -⟩
    rw [unwrapped] at wraps
    cases wraps
  · have wrapper := mainWrapper_wellTyped_iff (emits.sited named valid entry) wraps
      (List.mem_of_find?_eq_some found)
    have params : WrapsParams options module ↔ entry.params ≠ [] := by
      constructor
      · rintro ⟨-, other, isEntry, some_⟩
        obtain rfl := Option.some.inj (found.symm.trans isEntry)
        exact some_
      · exact fun some_ => ⟨wraps, entry, found, some_⟩
    rw [params, not_not, ← wrapper, Module.WellTyped, same, List.forall_mem_append,
      List.forall_mem_singleton]
    exact ⟨And.right, And.intro own⟩

end Modules

/-- **Generated code is well typed unless a wrapper has arguments to pass.** -/
theorem generate_wellTyped_iff {file : SourceFile} {tokens : List Token} {program : Program}
    {entry : EntryOptions} {built : Built} (parsed : file.parse = .ok (tokens, program))
    (run : build entry file program = .ok built) (verified : built.module.violations = [])
    (optimizer : Optimizer) (options : Options) :
    ∀ module ∈ [built.module, (optimizer.optimize built.module).1], ∀ generated,
      generate options module = .ok generated →
        (generated.WellTyped ↔ ¬ WrapsParams options module) := by
  obtain ⟨-, read⟩ := SourceFile.ofTokens_of_parse parsed
  have written := Program.written_of_ofTokens read
  obtain ⟨signature?, opened, last, translates⟩ := build_translates written run
  have named := translates_named translates (SourceFile.point_notMem parsed)
  have typed := build_typed written run
  have orderly := translates.orderly verified
  have valid : ∀ function ∈ built.module.functions, function.result ≠ .invalid := by
    intro function member
    obtain ⟨source, -, earlier, later, lowers, -⟩ := translates.lowers.origin member
    exact lowers.valid
  intro module listed generated made
  obtain ⟨codes, emits⟩ := generate_emits made
  simp only [List.mem_cons, List.not_mem_nil, or_false] at listed
  rcases listed with rfl | rfl
  · exact emits.wellTyped_iff named valid typed fun function member =>
      (orderly function member).grounded
  · refine emits.wellTyped_iff (named.optimize optimizer) (fun function member => ?_)
      (typed.optimize optimizer) fun function member =>
        (optimizer.optimize_orderly orderly function member).grounded
    obtain ⟨original, within, head⟩ :=
      exists_of_forall₂ (sameHead_rewriting.optimize optimizer built.module) member
    rw [head.result_eq]
    exact valid original within

/-- A file whose entry function has a parameter. -/
def entryParamFile : SourceFile := ⟨"test.tss", "func start(x int) \x7b \x7d"⟩

theorem generate_wellTyped_iff_entryParam : ∃ tokens program built generated,
    entryParamFile.parse = .ok (tokens, program) ∧
      build { name := "start" } entryParamFile program = .ok built ∧
      built.module.violations = [] ∧
      generate { mainWrapper := true } built.module = .ok generated ∧ ¬ generated.WellTyped := by
  obtain ⟨tokens, program, built, parsed, run, check⟩ :=
    exists_compiled entryParamFile { name := "start" }
      (fun built => built.module.violations.isEmpty &&
        (generate { mainWrapper := true } built.module).toOption.isSome &&
        wrapsEntry { mainWrapper := true } built.module &&
        (built.module.function? built.module.entry).any fun entry => !entry.params.isEmpty)
      (by decide +kernel)
  simp only [Bool.and_eq_true, List.isEmpty_iff] at check
  obtain ⟨⟨⟨verified, made⟩, wraps⟩, params⟩ := check
  have wrapsParams : WrapsParams { mainWrapper := true } built.module := by
    cases found : built.module.function? built.module.entry with
    | none => simp [found] at params
    | some function => exact ⟨wraps, function, found, by simpa [found] using params⟩
  cases generation : generate { mainWrapper := true } built.module with
  | error stop => simp [generation, Except.toOption] at made
  | ok generated =>
      have typed := generate_wellTyped_iff parsed run verified (Optimizer.ofLevel 0)
        { mainWrapper := true } _ List.mem_cons_self generated generation
      exact ⟨tokens, program, built, generated, parsed, run, verified, generation,
        fun wellTyped => typed.mp wellTyped wrapsParams⟩

end ScriptCompiler.LLVM
