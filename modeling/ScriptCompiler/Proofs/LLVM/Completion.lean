import ScriptCompiler.Proofs.LLVM.Typing
import ScriptCompiler.Proofs.Optimize.Soundness

/-!
# When code is generated

Generation looks operands up block after block, in the order in which blocks stand.  In a well-typed
module whose definitions come first, whose operands are in range and whose callees are known, it
finds every one of them with the type that is asked for, so each function becomes something
(`exists_emitsFunction`).  What is left to go wrong is a function with the name of a declared one
(`generate_eq_error_iff`).
-/

namespace ScriptCompiler.LLVM

open IR Lowering

/-! ### What becomes something is generated -/

namespace Generate

variable {env : Surroundings} {locals last : Locals} {insts more : List Inst}

theorem operand_eq {value : Value} {operand : Operand}
    (found : env.operand? locals.operands value = some operand) :
    Generate.operand env value (locals, insts) = .ok (operand, locals, insts) := by
  cases value with
  | constant constant =>
      cases constant with
      | nothing => cases found
      | int | float | bool =>
          obtain rfl := Option.some.inj found
          rfl
  | stray => cases found
  | param | slot | temp => exact lookup_ok.mpr ⟨found, rfl⟩
  | string index =>
      obtain ⟨content, there, rfl⟩ := Option.map_eq_some_iff.mp found
      rw [Generate.operand, there]
      rfl

theorem compareInts_eq {predicate : IntPredicate} {left right : Operand}
    (comparable : left.type.IsComparable) :
    compareInts predicate left right (locals, insts) =
      define (.int 1) (fun number => .icmp number predicate left right) (locals, insts) := by
  unfold compareInts
  cases isType : left.type with
  | int | pointer => rfl
  | void | double =>
      rw [isType] at comparable
      exact comparable.elim

theorem binary_eq {opcode : BinaryOpcode} {left right : Operand} {type : LType} {inst : Inst}
    (made : BinaryInst locals.next left right opcode type inst) :
    binary env opcode left right (locals, insts) =
      .ok (.result locals.next type, { locals with next := locals.next + 1 }, insts ++ [inst]) := by
  cases made with
  | arithmetic isOperation => cases opcode <;> cases isOperation <;> rfl
  | icmp isPredicate comparable =>
      cases opcode <;> cases isPredicate <;> exact compareInts_eq comparable
  | fcmp isPredicate isDouble =>
      cases opcode <;> cases isPredicate <;> simp only [binary, compareFloats, isDouble] <;> rfl

theorem unary_eq {opcode : UnaryOpcode} {operand : Operand} {type : LType} {inst : Inst}
    (made : UnaryInst locals.next operand opcode type inst) :
    unary env opcode operand (locals, insts) =
      .ok (.result locals.next type, { locals with next := locals.next + 1 }, insts ++ [inst]) := by
  cases made <;> rfl

theorem arguments_eq {fixed next : Nat} {values : List Value} {passed : List Operand}
    (passes : Passes env locals.operands fixed locals.next values more passed next) :
    arguments env fixed values (locals, insts) =
      .ok (passed, { locals with next := next }, insts ++ more) := by
  obtain ⟨operands, start⟩ := locals
  dsimp only at passes ⊢
  induction passes generalizing insts with
  | nil =>
      rw [List.append_nil]
      rfl
  | plain isPlain found _ ih =>
      refine bind_ok.mpr ⟨_, _, operand_eq found, ?_⟩
      rw [if_neg (by simpa using isPlain)]
      exact bind_ok.mpr ⟨_, _, rfl, bind_ok.mpr ⟨_, _, ih, rfl⟩⟩
  | widened isBool found _ ih =>
      refine bind_ok.mpr ⟨_, _, operand_eq found, ?_⟩
      rw [if_pos (by simp [isBool])]
      refine bind_ok.mpr ⟨_, _, rfl, bind_ok.mpr ⟨_, _, ih, ?_⟩⟩
      rw [List.append_assoc]
      rfl

/-- An instruction that becomes something is generated. -/
theorem instr_eq {instr : Instr} {terminator : Option Terminator}
    (emits : Emits env locals instr more terminator last) :
    Generate.instr env instr (locals, insts) = .ok (terminator, last, insts ++ more) := by
  cases emits with
  | alloca | jump | leave =>
      rw [List.append_nil]
      rfl
  | copy found =>
      rw [List.append_nil]
      exact bind_ok.mpr ⟨_, _, operand_eq found, rfl⟩
  | load found => exact bind_ok.mpr ⟨_, _, operand_eq found, rfl⟩
  | store isPlace isContent same =>
      refine bind_ok.mpr ⟨_, _, operand_eq isPlace, bind_ok.mpr ⟨_, _, operand_eq isContent, ?_⟩⟩
      simp only [same, bne_self_eq_false, Bool.false_eq_true, if_false]
      rfl
  | binary isLeft isRight made =>
      exact bind_ok.mpr ⟨_, _, operand_eq isLeft, bind_ok.mpr ⟨_, _, operand_eq isRight,
        bind_ok.mpr ⟨_, _, binary_eq made, rfl⟩⟩⟩
  | unary found made =>
      exact bind_ok.mpr ⟨_, _, operand_eq found, bind_ok.mpr ⟨_, _, unary_eq made, rfl⟩⟩
  | @call dest callee values name type _ passed next called passes notVoid =>
      refine bind_ok.mpr ⟨_, _, lift_ok.mpr ⟨called, rfl⟩,
        bind_ok.mpr ⟨_, _, arguments_eq passes, ?_⟩⟩
      rw [if_neg (by simpa using notVoid), ← List.append_assoc]
      cases dest with
      | none => rfl
      | some result => rfl
  | @command dest callee values name type _ passed next called passes isVoid =>
      refine bind_ok.mpr ⟨_, _, lift_ok.mpr ⟨called, rfl⟩,
        bind_ok.mpr ⟨_, _, arguments_eq passes, ?_⟩⟩
      rw [if_pos (by simp [isVoid]), ← List.append_assoc, ← isVoid]
      cases dest with
      | none => rfl
      | some result => rfl
  | branch found | ret found =>
      rw [List.append_nil]
      exact bind_ok.mpr ⟨_, _, operand_eq found, rfl⟩

theorem instrs_eq {earlier terminator : Option Terminator} {instrs : List Instr}
    (emits : EmitsAll env locals earlier instrs more terminator last) :
    Generate.instrs env earlier instrs (locals, insts) = .ok (terminator, last, insts ++ more) := by
  induction emits generalizing insts with
  | nil =>
      rw [List.append_nil]
      rfl
  | cons first _ ih =>
      rw [← List.append_assoc]
      exact bind_ok.mpr ⟨_, _, instr_eq first, ih⟩

end Generate

theorem blocks_eq {env : Surroundings} {locals : Locals} {start : List Inst}
    {sources : List IR.Block}
    {made : List Block} (emits : EmitsBlocks env locals start sources made) :
    blocks env locals start sources = .ok made := by
  induction emits with
  | nil => rfl
  | @cons locals last start insts block _ _ _ first _ ih =>
      have run := @Generate.instrs_eq _ _ _ start _ _ _ _ first
      rw [Locals.beginBlock] at run
      simp only [blocks, StateT.run, run, ih, bind, Except.bind]
      rfl

theorem function_eq {module : IR.Module} {wraps : Bool} {source : IR.Function} {code : Function}
    (emits : EmitsFunction module wraps source code) : function module wraps source = .ok code := by
  have made := blocks_eq emits.blocks
  rw [Locals.start, allocas] at made
  simp only [function, made, bind, Except.bind]
  rw [← emits.name_eq, ← emits.params_eq, ← emits.result_eq]
  rfl

theorem exists_mapM {α β ε : Type} {step : α → Except ε β} {list : List α}
    (each : ∀ value ∈ list, ∃ result, step value = .ok result) :
    ∃ results, list.mapM step = .ok results := by
  induction list with
  | nil => exact ⟨[], rfl⟩
  | cons value rest ih =>
      rw [List.forall_mem_cons] at each
      obtain ⟨result, first⟩ := each.1
      obtain ⟨results, others⟩ := ih each.2
      exact ⟨result :: results, by
        simp [List.mapM_cons, first, others, bind, Except.bind, pure, Except.pure]⟩

/-! ### What can be generated -/

/-- An operand has the type of a value. -/
def Matches (value : Value) (operand : Operand) : Prop := operand.type = typeOf value

/-- What generating a function relies on. -/
structure Generable (module : IR.Module) (source : IR.Function) : Prop where
  /-- Definitions come first. -/
  grounded : source.Grounded
  /-- Operands are in range. -/
  inRange : source.InRange module.interface.texts
  /-- The code is well typed. -/
  typed : ∀ instr ∈ source.instrs, instr.WellTyped module.interface source.result
  /-- Callees are known. -/
  known : ∀ instr ∈ source.instrs, ∀ callee ∈ instr.callee?, module.knows callee = true

theorem callee_of_knows {env : Surroundings} {callee : Callee}
    (known : env.module.knows callee = true) :
    ∃ name type, env.callee callee = .ok (name, type) := by
  obtain ⟨linkage, name⟩ := callee
  cases linkage with
  | defined =>
      obtain ⟨function, found⟩ := Option.isSome_iff_exists.mp known
      simp only [Surroundings.callee, found]
      exact ⟨_, _, rfl⟩
  | external =>
      obtain ⟨external, found⟩ := Option.isSome_iff_exists.mp known
      simp only [Surroundings.callee, found]
      exact ⟨_, _, rfl⟩
  | unknown => cases known

theorem exists_passes {env : Surroundings} {operands : List (Nat × Operand)} {values : List Value}
    (found : ∀ value ∈ values, ∃ operand, env.operand? operands value = some operand) :
    ∀ fixed next, ∃ insts passed last, Passes env operands fixed next values insts passed last := by
  induction values with
  | nil => exact fun fixed next => ⟨_, _, _, .nil⟩
  | cons value values ih =>
      rw [List.forall_mem_cons] at found
      obtain ⟨⟨operand, isOperand⟩, others⟩ := found
      intro fixed next
      by_cases widens : fixed = 0 ∧ value.type = .bool
      · obtain ⟨rfl, isBool⟩ := widens
        obtain ⟨insts, passed, last, passes⟩ := ih others 0 (next + 1)
        exact ⟨_, _, _, .widened isBool isOperand passes⟩
      · obtain ⟨insts, passed, last, passes⟩ := ih others (fixed - 1) next
        exact ⟨_, _, _, .plain widens isOperand passes⟩

theorem exists_binaryInst {opcode : BinaryOpcode} {basic : BasicType} {operator : TokenKind}
    {left : Operand} (chosen : binaryOpcode? basic operator = some opcode)
    (isType : left.type = .ofBasic basic) (number : Nat) (right : Operand) :
    ∃ inst, BinaryInst number left right opcode
      (.ofBasic (if opcode.isComparison then .bool else basic)) inst := by
  have arithmetic : ∀ operation, arithmetic? opcode = some operation → opcode.isComparison = false →
      ∃ inst, BinaryInst number left right opcode
        (.ofBasic (if opcode.isComparison then .bool else basic)) inst := by
    intro operation isOperation computes
    rw [computes, if_neg (by decide), ← isType]
    exact ⟨_, .arithmetic isOperation⟩
  unfold binaryOpcode? at chosen
  split at chosen <;> cases chosen
  all_goals first
    | exact arithmetic _ rfl rfl
    | exact ⟨_, .icmp rfl (by rw [isType]; trivial)⟩
    | exact ⟨_, .fcmp rfl isType⟩

theorem exists_unaryInst {opcode : UnaryOpcode} {basic : BasicType} {operator : TokenKind}
    {operand : Operand} (chosen : unaryOpcode? basic operator = some opcode)
    (isType : operand.type = .ofBasic basic) (number : Nat) :
    ∃ inst, UnaryInst number operand opcode (.ofBasic basic) inst := by
  unfold unaryOpcode? at chosen
  split at chosen <;> cases chosen
  · exact ⟨_, .neg⟩
  · rw [← isType]
    exact ⟨_, .fneg⟩
  · rw [← isType]
    exact ⟨_, .not⟩

section Existence

variable {env : Surroundings} {source : IR.Function} {earlier later : List Instr} {instr : Instr}
  {locals : Locals} (generable : Generable env.module source)
  (split : source.instrs = earlier ++ instr :: later)
  (stands : Stands Matches (standing source earlier) locals.operands)
include generable split stands

/-- Everything that an instruction reads has an operand of its type. -/
theorem exists_operand {value : Value} (read : value ∈ instr.operands) :
    ∃ operand, env.operand? locals.operands value = some operand ∧ Matches value operand := by
  have inRange := generable.inRange instr (by rw [split]; simp) value read
  have numbered : ∀ id, value.id? = some id →
      ∃ operand, locals.operands.lookup id = some operand ∧ Matches value operand := fun id isId =>
    stands value (mem_standing generable.grounded split read isId) id isId
  cases value with
  | constant constant =>
      cases constant with
      | nothing => exact inRange.elim
      | int | float | bool => exact ⟨_, rfl, rfl⟩
  | stray => exact inRange.elim
  | string index =>
      have there : env.module.strings[index]? = some env.module.strings[index] :=
        List.getElem?_eq_getElem inRange
      exact ⟨_, Option.map_eq_some_iff.mpr ⟨_, there, rfl⟩, rfl⟩
  | param | slot | temp => exact numbered _ rfl

/-- **An instruction becomes something, and an operand of its type stands for its result.** -/
theorem exists_emits : ∃ insts terminator last, Emits env locals instr insts terminator last ∧
    ∀ dest, instr.result? = some (.temp dest) → ∀ operand,
      last.operands = (dest.id, operand) :: locals.operands → Matches (.temp dest) operand := by
  have member : instr ∈ source.instrs := by rw [split]; simp
  have typed := generable.typed instr member
  have look : ∀ value ∈ instr.operands,
      ∃ operand, env.operand? locals.operands value = some operand ∧ Matches value operand :=
    fun value read => exists_operand generable split stands read
  cases instr with
  | alloca place => exact ⟨_, _, _, .alloca, fun dest isResult => by cases isResult⟩
  | copy dest value =>
      obtain ⟨operand, found, isType⟩ := look _ List.mem_cons_self
      refine ⟨_, _, _, .copy found, fun temp isResult other same => ?_⟩
      cases isResult
      cases same
      exact isType.trans (typeOf_of_yields typed)
  | load dest address =>
      obtain ⟨place, found, -⟩ := look _ List.mem_cons_self
      refine ⟨_, _, _, .load found, fun temp isResult other same => ?_⟩
      cases isResult
      cases same
      rfl
  | store address value =>
      obtain ⟨place, isPlace, placeType⟩ := look address (by simp [Instr.operands])
      obtain ⟨content, isContent, contentType⟩ := look value (by simp [Instr.operands])
      obtain ⟨basic, holds, yields⟩ := typed
      refine ⟨_, _, _, .store isPlace isContent ?_, fun dest isResult => by cases isResult⟩
      rw [placeType, (typeOf_of_holds holds).2, contentType, typeOf_of_yields yields]
  | binary opcode dest left right =>
      obtain ⟨first, isFirst, firstType⟩ := look left (by simp [Instr.operands])
      obtain ⟨second, isSecond, -⟩ := look right (by simp [Instr.operands])
      obtain ⟨basic, operator, leftYields, -, chosen, isType⟩ := typed
      obtain ⟨inst, made⟩ := exists_binaryInst chosen
        (firstType.trans (typeOf_of_yields leftYields)) locals.next second
      refine ⟨_, _, _, .binary isFirst isSecond made, fun temp isResult other same => ?_⟩
      cases isResult
      cases same
      exact (congrArg LType.ofBasic isType).symm
  | unary opcode dest value =>
      obtain ⟨operand, found, valueType⟩ := look _ List.mem_cons_self
      obtain ⟨operator, yields, chosen⟩ := typed
      obtain ⟨inst, made⟩ := exists_unaryInst chosen
        (valueType.trans (typeOf_of_yields yields)) locals.next
      refine ⟨_, _, _, .unary found made, fun temp isResult other same => ?_⟩
      cases isResult
      cases same
      rfl
  | call dest callee values =>
      obtain ⟨name, type, called⟩ := callee_of_knows (generable.known _ member callee rfl)
      obtain ⟨insts, passed, next, passes⟩ := exists_passes
        (fun value read => (look value read).imp fun _ => And.left) type.params.length locals.next
      -- A result is received from a defined function, whose type is that of the receiver.
      have received : ∀ temp, dest = some temp → type.result = .ofBasic temp.type := by
        rintro temp rfl
        obtain ⟨linkage, callee⟩ := callee
        cases linkage with
        | defined =>
            obtain ⟨signature, known, -, -, kept⟩ := typed
            obtain ⟨function, found, -, rfl⟩ := callee_defined called
            obtain rfl : function.signature = signature := by
              simpa [Module.interface, found] using known
            rw [Option.map_some] at kept
            split at kept
            · cases kept
            · exact congrArg LType.ofBasic (Option.some.inj kept).symm
        | external => cases typed.2.1
        | unknown => exact typed.elim
      by_cases isVoid : type.result = .void
      · refine ⟨_, _, _, .command called passes isVoid, fun temp isResult other same => ?_⟩
        obtain ⟨_, rfl, equal⟩ := Option.map_eq_some_iff.mp isResult
        cases equal
        cases same
        exact isVoid.symm.trans (received temp rfl)
      · refine ⟨_, _, _, .call called passes isVoid, fun temp isResult other same => ?_⟩
        obtain ⟨_, rfl, equal⟩ := Option.map_eq_some_iff.mp isResult
        cases equal
        cases same
        exact received temp rfl
  | jump target => exact ⟨_, _, _, .jump, fun dest isResult => by cases isResult⟩
  | branch condition ifTrue ifFalse =>
      obtain ⟨operand, found, -⟩ := look _ List.mem_cons_self
      exact ⟨_, _, _, .branch found, fun dest isResult => by cases isResult⟩
  | ret value =>
      cases value with
      | none => exact ⟨_, _, _, .leave, fun dest isResult => by cases isResult⟩
      | some value =>
          obtain ⟨operand, found, -⟩ := look _ List.mem_cons_self
          exact ⟨_, _, _, .ret found, fun dest isResult => by cases isResult⟩

end Existence

section Functions

variable {env : Surroundings} {source : IR.Function} {earlier later : List Instr} {locals : Locals}
  (generable : Generable env.module source)
include generable

theorem exists_emitsAll {instrs : List Instr} (split : source.instrs = earlier ++ (instrs ++ later))
    (stands : Stands Matches (standing source earlier) locals.operands)
    (before : Option Terminator) :
    ∃ insts terminator last, EmitsAll env locals before instrs insts terminator last ∧
      Stands Matches (standing source (earlier ++ instrs)) last.operands := by
  induction instrs generalizing earlier locals before with
  | nil => exact ⟨_, _, _, .nil, by simpa using stands⟩
  | cons instr instrs ih =>
      have here : source.instrs = earlier ++ instr :: (instrs ++ later) := by simpa using split
      obtain ⟨insts, own, middle, emits, fit⟩ := exists_emits generable here stands
      have next := stands.step generable.grounded here emits fit
      obtain ⟨others, terminator, last, rest, final⟩ :=
        ih (by simpa using split) next (own.or before)
      exact ⟨_, _, _, .cons emits rest, by simpa using final⟩

theorem exists_emitsBlocks {blocks : List IR.Block}
    (split : source.instrs = earlier ++ blocks.flatMap IR.Block.instrs)
    (stands : Stands Matches (standing source earlier) locals.operands) (start : List Inst) :
    ∃ codes, EmitsBlocks env locals start blocks codes := by
  induction blocks generalizing earlier locals start with
  | nil => exact ⟨_, .nil⟩
  | cons block blocks ih =>
      have begun : Stands Matches (standing source earlier) (locals.beginBlock block).operands := by
        rw [Locals.beginBlock]
        split <;> exact stands
      obtain ⟨insts, terminator, last, emits, next⟩ :=
        exists_emitsAll generable (by simpa using split) begun none
      obtain ⟨codes, rest⟩ := ih (by simpa using split) next []
      exact ⟨_, .cons emits rest⟩

end Functions

/-- **A function becomes something.** -/
theorem exists_emitsFunction {module : IR.Module} {source : IR.Function}
    (generable : Generable module source) (wraps : Bool) :
    ∃ code, EmitsFunction module wraps source code := by
  have start : Stands Matches (standing source []) (Locals.start source).operands :=
    Stands.start generable.grounded (fun _ _ => rfl) (fun _ _ => rfl)
  obtain ⟨codes, emits⟩ :=
    @exists_emitsBlocks ⟨module, wraps, source⟩ _ _ _ generable source.blocks rfl start
    (allocas source)
  exact ⟨⟨_, _, _, codes⟩, rfl, rfl, rfl, emits⟩

/-! ### Modules -/

section Modules

variable {module : IR.Module} (generable : ∀ function ∈ module.functions, Generable module function)
  (entry : (module.function? module.entry).isSome) (options : Options)
include generable entry

/-- A module without conflicts of names becomes something. -/
theorem exists_generate
    (apart : (module.externals.find? fun external => (module.function? external.name).isSome) =
      none) :
    ∃ generated, generate options module = .ok generated := by
  obtain ⟨codes, made⟩ : ∃ codes,
      module.functions.mapM (function module (wrapsEntry options module)) = .ok codes :=
    exists_mapM fun source member =>
      (exists_emitsFunction (generable source member) _).imp fun _ => function_eq
  obtain ⟨start, isEntry⟩ := Option.isSome_iff_exists.mp entry
  unfold generate
  simp only [apart, made, isEntry, bind, Except.bind]
  cases wrapsEntry options module with
  | false => exact ⟨_, rfl⟩
  | true => exact ⟨_, rfl⟩

/-- **Generation fails exactly if the output function is declared and defined as well.** -/
theorem generate_eq_error_iff (named : Named module) {stop : Stop} :
    generate options module = .error stop ↔
      stop = .fault none (.conflict formatter.name) ∧ formatter ∈ module.externals ∧
        (module.function? formatter.name).isSome := by
  cases conflict :
    module.externals.find? fun external => (module.function? external.name).isSome with
  | none =>
      obtain ⟨generated, made⟩ := exists_generate generable entry options conflict
      rw [made]
      constructor
      · intro failed
        cases failed
      · rintro ⟨-, declared, defined⟩
        exact absurd defined (List.find?_eq_none.mp conflict formatter declared)
  | some external =>
      have member := List.mem_of_find?_eq_some conflict
      obtain rfl : external = formatter := by
        rcases named.externals with none_ | one
        · simp [none_] at member
        · simpa [one] using member
      have failed : generate options module = .error (.fault none (.conflict formatter.name)) := by
        unfold generate
        rw [conflict]
        rfl
      have defined : (module.function? formatter.name).isSome := by
        simpa using List.find?_some conflict
      rw [failed, Except.error.injEq, eq_comm]
      exact ⟨fun same => ⟨same, member, defined⟩, And.left⟩

end Modules

end ScriptCompiler.LLVM
