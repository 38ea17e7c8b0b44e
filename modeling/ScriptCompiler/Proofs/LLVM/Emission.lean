import Mathlib.Data.List.Forall2
import ScriptCompiler.LLVM.Generate

/-!
# What generation emits

Generation is a computation on the operands that stand for values so far, which a fault or a misuse
ends.  Here a successful run is taken apart: the relations `Emits`, `EmitsAll` and `EmitsBlocks` say
what an instruction, a block and a list of blocks become and which operands stand for values
afterwards.  What is said about generated code is derived from them and never unfolds the generator.
-/

namespace ScriptCompiler.LLVM

/-! ### Operands -/

/-- The operand that stands for a value, given those that stand for numbered values. -/
def Surroundings.operand? (env : Surroundings) (operands : List (Nat × Operand)) :
    IR.Value → Option Operand
  | .constant (.int value) => some (.int value)
  | .constant (.float value) => some (.double value)
  | .constant (.bool value) => some (.bool value)
  | .constant .nothing | .stray _ => none
  | .string index =>
      env.module.strings[index]?.map fun content => .text (IR.stringName index) (content.length + 1)
  | .param place | .slot place => operands.lookup place.id
  | .temp result => operands.lookup result.id

namespace Locals

/-- Let an operand stand for a numbered value. -/
def assign (locals : Locals) (id : Nat) (operand : Operand) : Locals :=
  { locals with operands := (id, operand) :: locals.operands }

/-- Let the next result stand for a numbered value. -/
def define (locals : Locals) (id : Nat) (type : LType) : Locals :=
  { operands := (id, .result locals.next type) :: locals.operands, next := locals.next + 1 }

/-- What stands for values behind a call whose own result may have a number. -/
def receive (locals : Locals) (dest : Option IR.Temp) (number : Option Nat) (type : LType)
    (next : Nat) : Locals :=
  { operands := (dest.map fun result => (result.id, Operand.result (number.getD 0) type)).toList ++
      locals.operands
    next }

/-- What stands for values at the beginning of a block: a block without a label takes a number. -/
def beginBlock (locals : Locals) (block : IR.Block) : Locals :=
  if block.name.label.isEmpty then { locals with next := locals.next + 1 } else locals

end Locals

/-! ### Instructions -/

/-- The arithmetic of an operation. -/
def arithmetic? : IR.BinaryOpcode → Option Arithmetic
  | .add => some .add
  | .sub => some .sub
  | .mul => some .mul
  | .div => some .sdiv
  | .mod => some .srem
  | .fadd => some .fadd
  | .fsub => some .fsub
  | .fmul => some .fmul
  | .fdiv => some .fdiv
  | .fmod => some .frem
  | _ => none

/-- The comparison of integers of an operation. -/
def intPredicate? : IR.BinaryOpcode → Option IntPredicate
  | .eq => some .eq
  | .ne => some .ne
  | .lt => some .slt
  | .le => some .sle
  | .gt => some .sgt
  | .ge => some .sge
  | _ => none

/-- The comparison of doubles of an operation. -/
def floatPredicate? : IR.BinaryOpcode → Option FloatPredicate
  | .feq => some .oeq
  | .fne => some .one
  | .flt => some .olt
  | .fle => some .ole
  | .fgt => some .ogt
  | .fge => some .oge
  | _ => none

/-- Integers and addresses, which can be compared as such. -/
def LType.IsComparable : LType → Prop
  | .int _ | .pointer _ => True
  | .void | .double => False

/-- The instruction that an operation on two operands becomes, and the type of its result. -/
inductive BinaryInst (number : Nat) (left right : Operand) : IR.BinaryOpcode → LType → Inst →
    Prop where
  | arithmetic {opcode : IR.BinaryOpcode} {operation : Arithmetic} :
      arithmetic? opcode = some operation →
      BinaryInst number left right opcode left.type (.arithmetic number operation left right)
  | icmp {opcode : IR.BinaryOpcode} {predicate : IntPredicate} :
      intPredicate? opcode = some predicate → left.type.IsComparable →
      BinaryInst number left right opcode (.int 1) (.icmp number predicate left right)
  | fcmp {opcode : IR.BinaryOpcode} {predicate : FloatPredicate} :
      floatPredicate? opcode = some predicate → left.type = .double →
      BinaryInst number left right opcode (.int 1) (.fcmp number predicate left right)

/-- The instruction that an operation on one operand becomes, and the type of its result. -/
inductive UnaryInst (number : Nat) (operand : Operand) : IR.UnaryOpcode → LType → Inst → Prop where
  | neg : UnaryInst number operand .neg (.int 32) (.arithmetic number .sub (.int 0) operand)
  | fneg : UnaryInst number operand .fneg operand.type (.fneg number operand)
  | not : UnaryInst number operand .not operand.type (.arithmetic number .xor operand (.bool true))

/-- What is passed for the arguments of a call, of which so many belong to parameters: instructions
that widen truth values, operands and the number of the next result. -/
inductive Passes (env : Surroundings) (operands : List (Nat × Operand)) :
    Nat → Nat → List IR.Value → List Inst → List Operand → Nat → Prop where
  | nil {fixed next : Nat} : Passes env operands fixed next [] [] [] next
  | plain {fixed next last : Nat} {value : IR.Value} {values : List IR.Value} {operand : Operand}
      {insts : List Inst} {passed : List Operand} :
      ¬ (fixed = 0 ∧ value.type = .bool) → env.operand? operands value = some operand →
      Passes env operands (fixed - 1) next values insts passed last →
      Passes env operands fixed next (value :: values) insts (operand :: passed) last
  | widened {next last : Nat} {value : IR.Value} {values : List IR.Value} {operand : Operand}
      {insts : List Inst} {passed : List Operand} :
      value.type = .bool → env.operand? operands value = some operand →
      Passes env operands 0 (next + 1) values insts passed last →
      Passes env operands 0 next (value :: values) (.zext next operand (.int 32) :: insts)
        (.result next (.int 32) :: passed) last

/-- What an instruction becomes: instructions, a terminator and what stands for values behind it. -/
inductive Emits (env : Surroundings) (locals : Locals) :
    IR.Instr → List Inst → Option Terminator → Locals → Prop where
  | alloca {slot : IR.Place} : Emits env locals (.alloca slot) [] none locals
  | copy {dest : IR.Temp} {value : IR.Value} {operand : Operand} :
      env.operand? locals.operands value = some operand →
      Emits env locals (.copy dest value) [] none (locals.assign dest.id operand)
  | load {dest : IR.Temp} {address : IR.Value} {place : Operand} :
      env.operand? locals.operands address = some place →
      Emits env locals (.load dest address) [.load locals.next (.ofBasic dest.type) place] none
        (locals.define dest.id (.ofBasic dest.type))
  | store {address value : IR.Value} {place content : Operand} :
      env.operand? locals.operands address = some place →
      env.operand? locals.operands value = some content →
      place.type = .pointer content.type →
      Emits env locals (.store address value) [.store content place] none locals
  | binary {opcode : IR.BinaryOpcode} {dest : IR.Temp} {left right : IR.Value}
      {first second : Operand} {type : LType} {inst : Inst} :
      env.operand? locals.operands left = some first →
      env.operand? locals.operands right = some second →
      BinaryInst locals.next first second opcode type inst →
      Emits env locals (.binary opcode dest left right) [inst] none (locals.define dest.id type)
  | unary {opcode : IR.UnaryOpcode} {dest : IR.Temp} {value : IR.Value} {operand : Operand}
      {type : LType} {inst : Inst} :
      env.operand? locals.operands value = some operand →
      UnaryInst locals.next operand opcode type inst →
      Emits env locals (.unary opcode dest value) [inst] none (locals.define dest.id type)
  | call {dest : Option IR.Temp} {callee : IR.Callee} {values : List IR.Value} {name : Bytes}
      {type : FunctionType} {insts : List Inst} {passed : List Operand} {next : Nat} :
      env.callee callee = .ok (name, type) →
      Passes env locals.operands type.params.length locals.next values insts passed next →
      type.result ≠ .void →
      Emits env locals (.call dest callee values)
        (insts ++ [.call (some next) name type passed]) none
        (locals.receive dest (some next) type.result (next + 1))
  | command {dest : Option IR.Temp} {callee : IR.Callee} {values : List IR.Value} {name : Bytes}
      {type : FunctionType} {insts : List Inst} {passed : List Operand} {next : Nat} :
      env.callee callee = .ok (name, type) →
      Passes env locals.operands type.params.length locals.next values insts passed next →
      type.result = .void →
      Emits env locals (.call dest callee values) (insts ++ [.call none name type passed]) none
        (locals.receive dest none .void next)
  | jump {target : IR.BlockName} :
      Emits env locals (.jump target) [] (some (.br (env.label target))) locals
  | branch {condition : IR.Value} {ifTrue ifFalse : IR.BlockName} {operand : Operand} :
      env.operand? locals.operands condition = some operand →
      Emits env locals (.branch condition ifTrue ifFalse) []
        (some (.condBr operand (env.label ifTrue) (env.label ifFalse))) locals
  | leave : Emits env locals (.ret none) [] (some (.ret none)) locals
  | ret {value : IR.Value} {operand : Operand} : env.operand? locals.operands value = some operand →
      Emits env locals (.ret (some value)) [] (some (.ret (some operand))) locals

/-- What the instructions of a block become; the last terminator counts. -/
inductive EmitsAll (env : Surroundings) : Locals → Option Terminator → List IR.Instr → List Inst →
    Option Terminator → Locals → Prop where
  | nil {locals : Locals} {terminator : Option Terminator} :
      EmitsAll env locals terminator [] [] terminator locals
  | cons {locals middle last : Locals} {earlier terminator final : Option Terminator}
      {instr : IR.Instr} {instrs : List IR.Instr} {insts others : List Inst} :
      Emits env locals instr insts terminator middle →
      EmitsAll env middle (terminator.or earlier) instrs others final last →
      EmitsAll env locals earlier (instr :: instrs) (insts ++ others) final last

/-- What blocks become, the first of which begins with given instructions. -/
inductive EmitsBlocks (env : Surroundings) : Locals → List Inst → List IR.Block → List Block →
    Prop where
  | nil {locals : Locals} {start : List Inst} : EmitsBlocks env locals start [] []
  | cons {locals last : Locals} {start insts : List Inst} {block : IR.Block}
      {blocks : List IR.Block} {terminator : Option Terminator} {others : List Block} :
      EmitsAll env (locals.beginBlock block) none block.instrs insts terminator last →
      EmitsBlocks env last [] blocks others →
      EmitsBlocks env locals start (block :: blocks)
        ({ label := block.name.label, number := locals.next, insts := start ++ insts,
           terminator } :: others)

/-! ### Successful runs -/

namespace Generate

variable {α β : Type} {env : Surroundings} {locals : Locals} {insts : List Inst}

theorem bind_ok {first : Generate α} {next : α → Generate β} {state : Locals × List Inst}
    {result : β × Locals × List Inst} :
    (first >>= next) state = .ok result ↔
      ∃ value middle, first state = .ok (value, middle) ∧ next value middle = .ok result := by
  simp only [bind, StateT.bind, Except.bind]
  cases first state with
  | error stop => simp
  | ok outcome => cases outcome; simp [and_assoc]

theorem pure_ok {value : α} {state : Locals × List Inst} {result : α × Locals × List Inst} :
    (pure value : Generate α) state = .ok result ↔ result = (value, state) := by
  change Except.ok (value, state) = .ok result ↔ _
  rw [Except.ok.injEq, eq_comm]

theorem misuse_ok {cause : Misuse} {state : Locals × List Inst} {result : α × Locals × List Inst} :
    (misuse cause : Generate α) state ≠ .ok result := by
  intro run
  cases run

theorem lift_ok {outcome : Except Stop α} {state : Locals × List Inst}
    {result : α × Locals × List Inst} :
    (liftM outcome : Generate α) state = .ok result ↔ outcome = .ok result.1 ∧
    result.2 = state := by
  cases outcome with
  | error stop =>
      refine ⟨fun run => ?_, fun both => ?_⟩
      · cases run
      · cases both.1
  | ok value =>
      obtain ⟨answer, after⟩ := result
      refine ⟨fun run => ?_, ?_⟩
      · cases run
        exact ⟨rfl, rfl⟩
      · rintro ⟨found, rfl⟩
        cases found
        rfl

theorem fail_ok {fault : Fault} {state : Locals × List Inst} {result : α × Locals × List Inst} :
    (liftM (env.fail fault : Except Stop α) : Generate α) state ≠ .ok result := by
  intro run
  cases (lift_ok.mp run).1

theorem lookup_ok {id : Nat} {text : Bytes} {operand : Operand} {after : Locals × List Inst} :
    lookup env id text (locals, insts) = .ok (operand, after) ↔
      locals.operands.lookup id = some operand ∧ after = (locals, insts) := by
  simp only [lookup, bind_ok]
  constructor
  · rintro ⟨_, _, got, run⟩
    cases got
    cases isFound : locals.operands.lookup id with
    | none =>
        simp only [isFound] at run
        exact absurd run fail_ok
    | some found =>
        simp only [isFound] at run
        obtain ⟨rfl, rfl⟩ := Prod.mk.inj (pure_ok.mp run)
        exact ⟨rfl, rfl⟩
  · rintro ⟨found, rfl⟩
    refine ⟨_, _, rfl, ?_⟩
    rw [found]
    rfl

/-- The operand of a value is looked up; nothing is emitted. -/
theorem operand_ok {value : IR.Value} {operand : Operand} {after : Locals × List Inst} :
    Generate.operand env value (locals, insts) = .ok (operand, after) →
      env.operand? locals.operands value = some operand ∧ after = (locals, insts) := by
  intro run
  cases value with
  | constant constant =>
      cases constant with
      | nothing => exact absurd run fail_ok
      | int | float | bool =>
          obtain ⟨rfl, rfl⟩ := Prod.mk.inj (pure_ok.mp run)
          exact ⟨rfl, rfl⟩
  | param | slot | temp => exact lookup_ok.mp run
  | stray => exact absurd run fail_ok
  | string index =>
      rw [Surroundings.operand?]
      cases found : env.module.strings[index]? with
      | none =>
          simp only [Generate.operand, found] at run
          exact absurd run fail_ok
      | some content =>
          simp only [Generate.operand, found] at run
          obtain ⟨rfl, rfl⟩ := Prod.mk.inj (pure_ok.mp run)
          exact ⟨rfl, rfl⟩

theorem define_ok {type : LType} {inst : Nat → Inst} {operand : Operand}
    {after : Locals × List Inst} (run : define type inst (locals, insts) = .ok (operand, after)) :
    operand = .result locals.next type ∧
      after = ({ locals with next := locals.next + 1 }, insts ++ [inst locals.next]) := by
  cases run
  exact ⟨rfl, rfl⟩

theorem compareInts_ok {predicate : IntPredicate} {left right operand : Operand}
    {after : Locals × List Inst}
    (run : compareInts predicate left right (locals, insts) = .ok (operand, after)) :
    left.type.IsComparable ∧ operand = .result locals.next (.int 1) ∧
      after = ({ locals with next := locals.next + 1 },
        insts ++ [Inst.icmp locals.next predicate left right]) := by
  cases isType : left.type with
  | int | pointer =>
      simp only [compareInts, isType] at run
      exact ⟨trivial, define_ok run⟩
  | void | double =>
      simp only [compareInts, isType] at run
      exact absurd run misuse_ok

theorem compareFloats_ok {predicate : FloatPredicate} {left right operand : Operand}
    {after : Locals × List Inst}
    (run : compareFloats predicate left right (locals, insts) = .ok (operand, after)) :
    left.type = .double ∧ operand = .result locals.next (.int 1) ∧
      after = ({ locals with next := locals.next + 1 },
        insts ++ [Inst.fcmp locals.next predicate left right]) := by
  cases isType : left.type with
  | double =>
      simp only [compareFloats, isType] at run
      exact ⟨rfl, define_ok run⟩
  | void | int | pointer =>
      simp only [compareFloats, isType] at run
      exact absurd run misuse_ok

theorem binary_ok {opcode : IR.BinaryOpcode} {left right operand : Operand}
    {after : Locals × List Inst}
    (run : binary env opcode left right (locals, insts) = .ok (operand, after)) :
    ∃ type inst, BinaryInst locals.next left right opcode type inst ∧
      operand = .result locals.next type ∧
      after = ({ locals with next := locals.next + 1 }, insts ++ [inst]) := by
  cases opcode with
  | add | sub | mul | div | mod | fadd | fsub | fmul | fdiv | fmod =>
      exact ⟨_, _, .arithmetic rfl, define_ok run⟩
  | eq | ne | lt | le | gt | ge =>
      obtain ⟨comparable, made⟩ := compareInts_ok run
      exact ⟨_, _, .icmp rfl comparable, made⟩
  | feq | fne | flt | fle | fgt | fge =>
      obtain ⟨isDouble, made⟩ := compareFloats_ok run
      exact ⟨_, _, .fcmp rfl isDouble, made⟩
  | unlisted code => exact absurd run fail_ok

theorem unary_ok {opcode : IR.UnaryOpcode} {value operand : Operand} {after : Locals × List Inst}
    (run : unary env opcode value (locals, insts) = .ok (operand, after)) :
    ∃ type inst, UnaryInst locals.next value opcode type inst ∧
      operand = .result locals.next type ∧
      after = ({ locals with next := locals.next + 1 }, insts ++ [inst]) := by
  cases opcode with
  | neg => exact ⟨_, _, .neg, define_ok run⟩
  | fneg => exact ⟨_, _, .fneg, define_ok run⟩
  | not => exact ⟨_, _, .not, define_ok run⟩
  | unlisted code => exact absurd run fail_ok

theorem arguments_ok {fixed : Nat} {values : List IR.Value} {passed : List Operand}
    {after : Locals × List Inst}
    (run : arguments env fixed values (locals, insts) = .ok (passed, after)) :
    ∃ more next, Passes env locals.operands fixed locals.next values more passed next ∧
      after = ({ locals with next := next }, insts ++ more) := by
  induction values generalizing fixed locals insts passed after with
  | nil =>
      obtain ⟨rfl, rfl⟩ := Prod.mk.inj (pure_ok.mp run)
      exact ⟨[], _, .nil, by simp⟩
  | cons value values ih =>
      rw [arguments] at run
      obtain ⟨plain, _, looked, run⟩ := bind_ok.mp run
      obtain ⟨found, rfl⟩ := operand_ok looked
      by_cases widens : fixed = 0 ∧ value.type = .bool
      · obtain ⟨rfl, isBool⟩ := widens
        rw [if_pos (by simp [isBool])] at run
        obtain ⟨operand, _, made, run⟩ := bind_ok.mp run
        obtain ⟨rfl, rfl⟩ := define_ok made
        obtain ⟨others, _, rest, finished⟩ := bind_ok.mp run
        obtain ⟨rfl, rfl⟩ := Prod.mk.inj (pure_ok.mp finished)
        obtain ⟨more, next, passes, rfl⟩ := ih rest
        exact ⟨_, next, .widened isBool found passes, by simp⟩
      · rw [if_neg (by simpa using widens)] at run
        obtain ⟨operand, _, made, run⟩ := bind_ok.mp run
        obtain ⟨rfl, rfl⟩ := Prod.mk.inj (pure_ok.mp made)
        obtain ⟨others, _, rest, finished⟩ := bind_ok.mp run
        obtain ⟨rfl, rfl⟩ := Prod.mk.inj (pure_ok.mp finished)
        obtain ⟨more, next, passes, rfl⟩ := ih rest
        exact ⟨more, next, .plain widens found passes, rfl⟩

/-- What is emitted for an instruction. -/
theorem instr_emits {instr : IR.Instr} {terminator : Option Terminator} {after : Locals × List Inst}
    (run : Generate.instr env instr (locals, insts) = .ok (terminator, after)) :
    ∃ more last, Emits env locals instr more terminator last ∧ after = (last, insts ++ more) := by
  cases instr with
  | alloca slot =>
      obtain ⟨rfl, rfl⟩ := Prod.mk.inj (pure_ok.mp run)
      exact ⟨[], _, .alloca, by simp⟩
  | copy dest value =>
      obtain ⟨operand, _, looked, run⟩ := bind_ok.mp run
      obtain ⟨found, rfl⟩ := operand_ok looked
      cases run
      exact ⟨[], _, .copy found, by simp [Locals.assign]⟩
  | load dest address =>
      obtain ⟨place, _, looked, run⟩ := bind_ok.mp run
      obtain ⟨found, rfl⟩ := operand_ok looked
      cases run
      exact ⟨_, _, .load found, rfl⟩
  | store address value =>
      obtain ⟨place, _, looked, run⟩ := bind_ok.mp run
      obtain ⟨found, rfl⟩ := operand_ok looked
      obtain ⟨content, _, read, run⟩ := bind_ok.mp run
      obtain ⟨isContent, rfl⟩ := operand_ok read
      cases isType : place.type with
      | pointer type =>
          simp only [isType] at run
          by_cases same : content.type = type
          · rw [if_neg (by simp [same])] at run
            cases run
            exact ⟨_, _, .store found isContent (by rw [isType, same]), rfl⟩
          · rw [if_pos (by simpa using same)] at run
            obtain ⟨_, _, misused, -⟩ := bind_ok.mp run
            exact absurd misused misuse_ok
      | void | int | double =>
          simp only [isType] at run
          exact absurd run misuse_ok
  | binary opcode dest left right =>
      obtain ⟨first, _, looked, run⟩ := bind_ok.mp run
      obtain ⟨found, rfl⟩ := operand_ok looked
      obtain ⟨second, _, read, run⟩ := bind_ok.mp run
      obtain ⟨isSecond, rfl⟩ := operand_ok read
      obtain ⟨result, _, made, run⟩ := bind_ok.mp run
      obtain ⟨type, inst, isInst, rfl, rfl⟩ := binary_ok made
      cases run
      exact ⟨_, _, .binary found isSecond isInst, rfl⟩
  | unary opcode dest value =>
      obtain ⟨operand, _, looked, run⟩ := bind_ok.mp run
      obtain ⟨found, rfl⟩ := operand_ok looked
      obtain ⟨result, _, made, run⟩ := bind_ok.mp run
      obtain ⟨type, inst, isInst, rfl, rfl⟩ := unary_ok made
      cases run
      exact ⟨_, _, .unary found isInst, rfl⟩
  | call dest callee values =>
      obtain ⟨⟨name, type⟩, _, called, run⟩ := bind_ok.mp run
      obtain ⟨isCallee, rfl⟩ := lift_ok.mp called
      obtain ⟨passed, _, made, run⟩ := bind_ok.mp run
      obtain ⟨more, next, passes, rfl⟩ := arguments_ok made
      by_cases isVoid : type.result = .void
      · rw [if_pos (by simp [isVoid])] at run
        cases dest with
        | none =>
            cases run
            exact ⟨_, _, .command isCallee passes isVoid, by simp [Locals.receive]⟩
        | some result =>
            cases run
            exact ⟨_, _, .command isCallee passes isVoid, by simp [Locals.receive, isVoid]⟩
      · rw [if_neg (by simpa using isVoid)] at run
        cases dest with
        | none =>
            cases run
            exact ⟨_, _, .call isCallee passes isVoid, by simp [Locals.receive]⟩
        | some result =>
            cases run
            exact ⟨_, _, .call isCallee passes isVoid, by simp [Locals.receive]⟩
  | jump target =>
      obtain ⟨rfl, rfl⟩ := Prod.mk.inj (pure_ok.mp run)
      exact ⟨[], _, .jump, by simp⟩
  | branch condition ifTrue ifFalse =>
      obtain ⟨operand, _, looked, run⟩ := bind_ok.mp run
      obtain ⟨found, rfl⟩ := operand_ok looked
      obtain ⟨rfl, rfl⟩ := Prod.mk.inj (pure_ok.mp run)
      exact ⟨[], _, .branch found, by simp⟩
  | ret value =>
      cases value with
      | none =>
          obtain ⟨rfl, rfl⟩ := Prod.mk.inj (pure_ok.mp run)
          exact ⟨[], _, .leave, by simp⟩
      | some value =>
          obtain ⟨operand, _, looked, run⟩ := bind_ok.mp run
          obtain ⟨found, rfl⟩ := operand_ok looked
          obtain ⟨rfl, rfl⟩ := Prod.mk.inj (pure_ok.mp run)
          exact ⟨[], _, .ret found, by simp⟩

theorem instrs_emits {earlier terminator : Option Terminator} {instrs : List IR.Instr}
    {after : Locals × List Inst}
    (run : Generate.instrs env earlier instrs (locals, insts) = .ok (terminator, after)) :
    ∃ more last, EmitsAll env locals earlier instrs more terminator last ∧
      after = (last, insts ++ more) := by
  induction instrs generalizing locals insts earlier with
  | nil =>
      obtain ⟨rfl, rfl⟩ := Prod.mk.inj (pure_ok.mp run)
      exact ⟨[], _, .nil, by simp⟩
  | cons instr instrs ih =>
      obtain ⟨own, _, first, run⟩ := bind_ok.mp run
      obtain ⟨here, middle, emits, rfl⟩ := instr_emits first
      obtain ⟨later, last, rest, rfl⟩ := ih run
      exact ⟨_, _, .cons emits rest, by simp⟩

end Generate

/-! ### Functions and modules -/

theorem blocks_emits {env : Surroundings} {locals : Locals} {start : List Inst}
    {sources : List IR.Block} {made : List Block}
    (run : blocks env locals start sources = .ok made) :
    EmitsBlocks env locals start sources made := by
  induction sources generalizing locals start made with
  | nil =>
      cases run
      exact .nil
  | cons block rest ih =>
      rw [blocks] at run
      dsimp only at run
      cases first :
        (Generate.instrs env none block.instrs).run (locals.beginBlock block, start) with
      | error stop =>
          rw [Locals.beginBlock] at first
          rw [first] at run
          cases run
      | ok outcome =>
          obtain ⟨terminator, last, insts⟩ := outcome
          obtain ⟨more, _, emits, same⟩ := Generate.instrs_emits first
          obtain ⟨rfl, rfl⟩ := Prod.mk.inj same
          rw [Locals.beginBlock] at first
          rw [first] at run
          cases others : blocks env last [] rest with
          | error stop =>
              simp only [bind, Except.bind, others] at run
              cases run
          | ok tail =>
              simp only [bind, Except.bind, others] at run
              cases run
              exact .cons emits (ih others)

/-- What stands for the parameters and slots of a function. -/
def Locals.start (source : IR.Function) : Locals :=
  { operands :=
      ((slots source).map fun place =>
        (place.id, Operand.slot (slotName place) (LType.ofBasic place.type))) ++
      source.params.map fun place =>
        (place.id, Operand.param (paramName place) (LType.ofBasic place.type)) }

/-- The instructions that make the slots of a function. -/
def allocas (source : IR.Function) : List Inst :=
  (slots source).map fun place => .alloca (slotName place) (LType.ofBasic place.type)

/-- What a function becomes. -/
structure EmitsFunction (module : IR.Module) (wraps : Bool) (source : IR.Function)
    (code : Function) : Prop where
  /-- A user's own `main` makes room for the wrapper. -/
  name_eq : code.name = Surroundings.symbol wraps source.name
  /-- The parameters stay. -/
  params_eq : code.params = source.params.map fun place =>
    (paramName place, LType.ofBasic place.type)
  /-- The type of the result stays. -/
  result_eq : code.result = LType.ofBasic source.result
  /-- The blocks are those of the function, behind its slots. -/
  blocks : EmitsBlocks ⟨module, wraps, source⟩ (.start source) (allocas source) source.blocks
    code.blocks

theorem function_emits {module : IR.Module} {wraps : Bool} {source : IR.Function} {code : Function}
    (run : function module wraps source = .ok code) : EmitsFunction module wraps source code := by
  unfold function at run
  dsimp only at run
  cases made : blocks ⟨module, wraps, source⟩ (.start source) (allocas source) source.blocks with
  | error stop =>
      rw [Locals.start, allocas] at made
      rw [made] at run
      cases run
  | ok body =>
      have emits := blocks_emits made
      rw [Locals.start, allocas] at made
      rw [made] at run
      cases run
      exact ⟨rfl, rfl, rfl, emits⟩

/-- What a module becomes. -/
structure EmitsModule (options : Options) (module : IR.Module) (generated : Module)
    (codes : List Function) : Prop where
  /-- No declared function is defined as well. -/
  apart : ∀ external ∈ module.externals, module.function? external.name = none
  /-- The string constants are those of the module, with a zero behind each. -/
  texts_eq : generated.texts = module.strings.zipIdx.map fun entry =>
    ⟨IR.stringName entry.2, entry.1 ++ [0]⟩
  /-- The declarations are those of the module. -/
  declarations_eq : generated.declarations = module.externals.map fun external =>
    ⟨external.name, ⟨external.signature.params.map LType.ofBasic,
      LType.ofBasic external.signature.result, external.signature.variadic⟩⟩
  /-- The functions become functions. -/
  functions : List.Forall₂ (EmitsFunction module (wrapsEntry options module)) module.functions codes
  /-- The wrapper, if there is one, comes last. -/
  wrapped : wrapsEntry options module = false ∧ generated.functions = codes ∨
    wrapsEntry options module = true ∧ ∃ entry, module.function? module.entry = some entry ∧
      generated.functions = codes ++ [mainWrapper true entry]

theorem forall₂_of_mapM {α β ε : Type} {step : α → Except ε β} {list : List α} {results : List β}
    (run : list.mapM step = .ok results) :
    List.Forall₂ (fun value result => step value = .ok result) list results := by
  induction list generalizing results with
  | nil =>
      cases run
      exact .nil
  | cons value rest ih =>
      rw [List.mapM_cons] at run
      cases first : step value with
      | error stop =>
          rw [first] at run
          cases run
      | ok result =>
          rw [first] at run
          cases others : rest.mapM step with
          | error stop =>
              simp only [bind, Except.bind, others] at run
              cases run
          | ok results =>
              simp only [bind, Except.bind, others] at run
              cases run
              exact .cons first (ih others)

theorem generate_emits {options : Options} {module : IR.Module} {generated : Module}
    (run : generate options module = .ok generated) :
    ∃ codes, EmitsModule options module generated codes := by
  unfold generate at run
  cases apart : module.externals.find? fun external => (module.function? external.name).isSome with
  | some external =>
      rw [apart] at run
      cases run
  | none =>
      have undefined : ∀ external ∈ module.externals, module.function? external.name = none := by
        intro external member
        simpa using List.find?_eq_none.mp apart external member
      rw [apart] at run
      dsimp only [pure_bind] at run
      cases made : module.functions.mapM (function module (wrapsEntry options module)) with
      | error stop =>
          rw [made] at run
          cases run
      | ok codes =>
          have functions : List.Forall₂ (EmitsFunction module (wrapsEntry options module))
              module.functions codes := (forall₂_of_mapM made).imp fun _ _ => function_emits
          rw [made] at run
          refine ⟨codes, ?_⟩
          cases wraps : wrapsEntry options module with
          | false =>
              simp only [wraps, bind, Except.bind, pure, Except.pure, Bool.false_eq_true, if_false]
                at run
              cases run
              exact ⟨undefined, rfl, rfl, functions, .inl ⟨wraps, by simp⟩⟩
          | true =>
              simp only [wraps, bind, Except.bind, pure, Except.pure, if_true] at run
              cases entry : module.function? module.entry with
              | none =>
                  simp only [entry] at run
                  cases run
              | some function =>
                  simp only [entry] at run
                  cases run
                  exact ⟨undefined, rfl, rfl, functions, .inr ⟨wraps, function, entry, rfl⟩⟩

end ScriptCompiler.LLVM
