import Mathlib.Algebra.Group.Int.Defs
import Mathlib.Algebra.Group.Nat.Defs
import ScriptCompiler.LLVM.Generate
import ScriptCompiler.Proofs.LLVM.Mirroring
import ScriptCompiler.Proofs.Lowering.WellTyped
import ScriptCompiler.Proofs.Optimize.Meaning

/-!
# Arithmetic at once

Folding computes with integers that have no bound and cuts the result to 32 bits.  Here this is
compared with words: every constant of a built function fits in 32 bits and keeps doing so, whatever
passes run over it; on such constants 64 bits are enough for what folding computes in between; and
the result is the one that the emitted instruction comes to (`build_integers_exact`).
-/

namespace ScriptCompiler.IR

open LLVM Lowering Semantics

/-- An integer that 32 bits hold. -/
def IsWord (value : Int) : Prop := -2 ^ 31 ≤ value ∧ value ≤ 2 ^ 31 - 1

/-- An integer that 64 bits hold. -/
def IsLongWord (value : Int) : Prop := -2 ^ 63 ≤ value ∧ value ≤ 2 ^ 63 - 1

instance (value : Int) : Decidable (IsWord value) := inferInstanceAs (Decidable (_ ∧ _))

instance (value : Int) : Decidable (IsLongWord value) := inferInstanceAs (Decidable (_ ∧ _))

theorem isWord_iff_fits {value : Int} : IsWord value ↔ (Constant.int value).Fits := by
  simp only [Constant.Fits, IsWord]
  omega

/-! ### The integers of a function -/

/-- The integer that a value is, if it is a constant one. -/
def Value.int? : Value → Option Int
  | .constant (.int value) => some value
  | _ => none

/-- The integers that stand in a function. -/
def Function.ints (function : Function) : List Int :=
  function.instrs.flatMap fun instr => instr.operands.filterMap Value.int?

/-- A run of a pass makes a function of another. -/
def Function.Passes (before after : Function) : Prop :=
  ∃ pass result, Pass.run pass before = .ok result ∧ result.function = after

section Ranges

variable {texts : Nat} {function last : Function}

theorem Function.InRange.passes (inRange : function.InRange texts) (passes : function.Passes last) :
    last.InRange texts := by
  obtain ⟨pass, result, run, rfl⟩ := passes
  cases pass with
  | folding counted =>
      cases run
      exact inRange.foldConstants
  | deadCode =>
      cases run
      exact fun instr member =>
        inRange instr (function.eliminateDeadCode_trims.instrs_subset member)
  | refusing name reason => cases run

theorem Function.InRange.passesAll (inRange : function.InRange texts)
    (passes : Relation.ReflTransGen Function.Passes function last) : last.InRange texts := by
  induction passes with
  | refl => exact inRange
  | tail _ step ih => exact ih.passes step

theorem Function.InRange.ints (inRange : function.InRange texts) {value : Int}
    (member : value ∈ function.ints) : IsWord value := by
  obtain ⟨instr, within, read⟩ := List.mem_flatMap.mp member
  obtain ⟨operand, read, isInt⟩ := List.mem_filterMap.mp read
  have range := inRange instr within operand read
  unfold Value.int? at isInt
  split at isInt
  · cases isInt
    exact isWord_iff_fits.mpr range
  · cases isInt

end Ranges

/-! ### What folding computes in between -/

namespace BinaryOpcode

/-- What arithmetic comes to before it is cut to 32 bits. -/
def uncut? (opcode : BinaryOpcode) (left right : Int) : Option Int :=
  match opcode with
  | .add => some (left + right)
  | .sub => some (left - right)
  | .mul => some (left * right)
  | .div => if divisionTraps left right then none else some (left.tdiv right)
  | .mod => if divisionTraps left right then none else some (left.tmod right)
  | _ => none

/-- Folding with words of 64 bits. -/
def onLongWords? (opcode : BinaryOpcode) (left right : Int64) : Option Constant :=
  let cut : Int64 → Constant := fun result => .int result.toInt32.toInt
  let traps := right == 0 || (left == -2147483648 && right == -1)
  match opcode with
  | .add => some (cut (left + right))
  | .sub => some (cut (left - right))
  | .mul => some (cut (left * right))
  | .div => if traps then none else some (cut (left / right))
  | .mod => if traps then none else some (cut (left % right))
  | .eq => some (.bool (left == right))
  | .ne => some (.bool (left != right))
  | .lt => some (.bool (left < right))
  | .le => some (.bool (left ≤ right))
  | .gt => some (.bool (right < left))
  | .ge => some (.bool (right ≤ left))
  | _ => none

end BinaryOpcode

section LongWords

variable {left right value : Int}

theorem wrap32_eq (value : Int) : (Int64.ofInt value).toInt32.toInt = wrap32 value := by
  rw [Int64.toInt32_ofInt, Int32.toInt_ofInt]
  rfl

theorem toInt_ofInt_of_isLongWord (inside : IsLongWord value) :
    (Int64.ofInt value).toInt = value := by
  obtain ⟨lower, upper⟩ := inside
  rw [Int64.toInt_ofInt]
  exact Int.bmod_eq_of_le (by simp only [Int64.size]; omega) (by simp only [Int64.size]; omega)

theorem IsWord.isLongWord (inside : IsWord value) : IsLongWord value := by
  simp only [IsWord, IsLongWord] at inside ⊢
  omega

theorem ofInt_beq_longWords (leftLong : IsLongWord left) (rightLong : IsLongWord right) :
    (Int64.ofInt left == Int64.ofInt right) = (left == right) := by
  rw [Bool.eq_iff_iff, beq_iff_eq, beq_iff_eq, ← Int64.toInt_inj,
    toInt_ofInt_of_isLongWord leftLong,
    toInt_ofInt_of_isLongWord rightLong]

theorem IsWord.natAbs_le (inside : IsWord value) : value.natAbs ≤ 2 ^ 31 := by
  simp only [IsWord] at inside
  omega

theorem isLongWord_of_natAbs_le (small : value.natAbs ≤ 2 ^ 62) : IsLongWord value := by
  simp only [IsLongWord]
  omega

variable (leftWord : IsWord left) (rightWord : IsWord right)
include leftWord rightWord

/-- Sixty-four bits are enough for what folding computes in between. -/
theorem BinaryOpcode.uncut?_isLongWord {opcode : BinaryOpcode}
    (uncut : opcode.uncut? left right = some value) :
    IsLongWord value := by
  have leftSmall := leftWord.natAbs_le
  have rightSmall := rightWord.natAbs_le
  apply isLongWord_of_natAbs_le
  unfold uncut? at uncut
  split at uncut
  · cases uncut
    omega
  · cases uncut
    omega
  · cases uncut
    rw [Int.natAbs_mul]
    exact (Nat.mul_le_mul leftSmall rightSmall).trans (by decide)
  · split at uncut
    · cases uncut
    · cases uncut
      rw [Int.natAbs_tdiv]
      exact (Nat.div_le_self _ _).trans (leftSmall.trans (by decide))
  · split at uncut
    · cases uncut
    · cases uncut
      rw [Int.natAbs_tmod]
      exact (Nat.mod_le _ _).trans (leftSmall.trans (by decide))
  · cases uncut

omit leftWord rightWord in
theorem BinaryOpcode.onInts?_of_uncut? {opcode : BinaryOpcode}
    (uncut : opcode.uncut? left right = some value) :
    opcode.onInts? left right = some (.int (wrap32 value)) := by
  cases opcode with
  | add | sub | mul =>
      cases uncut
      rfl
  | div | mod =>
      simp only [uncut?, onInts?] at uncut ⊢
      split at uncut
      · cases uncut
      · rename_i sound
        cases uncut
        rw [if_neg sound]
  | _ => cases uncut

theorem traps_longWords :
    (Int64.ofInt right == 0 || (Int64.ofInt left == -2147483648 && Int64.ofInt right == -1)) =
      divisionTraps left right := by
  have leftLong := leftWord.isLongWord
  have rightLong := rightWord.isLongWord
  have zero : (0 : Int64) = .ofInt 0 := rfl
  have least : (-2147483648 : Int64) = .ofInt (-2147483648) := by decide
  have minusOne : (-1 : Int64) = .ofInt (-1) := by decide
  rw [zero, least, minusOne, ofInt_beq_longWords rightLong (by decide),
    ofInt_beq_longWords leftLong (by decide), ofInt_beq_longWords rightLong (by decide),
      divisionTraps]

/-- Folding with words of 64 bits is folding. -/
theorem BinaryOpcode.onLongWords?_eq (opcode : BinaryOpcode) :
    opcode.onLongWords? (.ofInt left) (.ofInt right) = opcode.onInts? left right := by
  have leftLong := leftWord.isLongWord
  have rightLong := rightWord.isLongWord
  have least : Int64.minValue.toInt = -2 ^ 63 := by decide
  have greatest : Int64.maxValue.toInt = 2 ^ 63 - 1 := by decide
  have same := ofInt_beq_longWords leftLong rightLong
  have traps := traps_longWords leftWord rightWord
  have cut : ∀ {result : Int64} (value : Int), Int64.ofInt value = result →
      (Constant.int result.toInt32.toInt) = .int (wrap32 value) := fun value isResult => by
    rw [← isResult, wrap32_eq]
  cases opcode with
  | add => exact congrArg some (cut _ (Int64.ofInt_add left right))
  | sub => exact congrArg some (cut _ (Int64.ofInt_sub left right))
  | mul => exact congrArg some (cut _ (Int64.ofInt_mul left right))
  | div =>
      simp only [onLongWords?, onInts?, traps]
      rw [cut (left.tdiv right) (Int64.ofInt_tdiv (least ▸ leftLong.1) (greatest ▸ leftLong.2)
        (least ▸ rightLong.1) (greatest ▸ rightLong.2))]
  | mod =>
      simp only [onLongWords?, onInts?, traps]
      rw [cut (left.tmod right) (Int64.ofInt_tmod (least ▸ leftLong.1) (greatest ▸ leftLong.2)
        (least ▸ rightLong.1) (greatest ▸ rightLong.2))]
  | eq => simp only [onLongWords?, onInts?, same]
  | ne => simp only [onLongWords?, onInts?, bne, same]
  | lt | gt =>
      simp only [onLongWords?, onInts?, Int64.lt_iff_toInt_lt, toInt_ofInt_of_isLongWord leftLong,
        toInt_ofInt_of_isLongWord rightLong]
  | le | ge =>
      simp only [onLongWords?, onInts?, Int64.le_iff_toInt_le, toInt_ofInt_of_isLongWord leftLong,
        toInt_ofInt_of_isLongWord rightLong]
  | _ => rfl

end LongWords

/-! ### What the emitted code comes to -/

/-- An operation on two integers folds as its code runs.  The code is one instruction with a
numbered result; on operands that hold the two integers it defines what folding yields, and where
folding yields nothing it has no meaning. -/
def BinaryOpcode.FoldsLikeCode (opcode : BinaryOpcode) (left right : Int) : Prop :=
  ∀ (env : Surroundings) (first second : Operand) (locals : Locals) (insts : List Inst),
    first.type = .int 32 → second.type = .int 32 →
    ∃ type inst, Generate.binary env opcode first second (locals, insts) =
        .ok (.result locals.next type, { locals with next := locals.next + 1 }, insts ++ [inst]) ∧
      ∀ {Double : Type} (machine : Machine Double) (module : LLVM.Module) (call : Routine Double)
        (image : Activation Double) (output : Output Double),
        first.scalar? machine module image = some (.word (.ofInt 32 left)) →
        second.scalar? machine module image = some (.word (.ofInt 32 right)) →
        inst.run machine module call image output = image.keep output locals.next
          ((opcode.onInts? left right).bind fun content => (content.datum? machine).map .ofDatum)

/-- The negative of an integer folds as its code runs. -/
def NegatesLikeCode (value : Int) : Prop :=
  ∀ (env : Surroundings) (operand : Operand) (locals : Locals) (insts : List Inst),
    ∃ type inst, Generate.unary env .neg operand (locals, insts) =
        .ok (.result locals.next type, { locals with next := locals.next + 1 }, insts ++ [inst]) ∧
      ∀ {Double : Type} (machine : Machine Double) (module : LLVM.Module) (call : Routine Double)
        (image : Activation Double) (output : Output Double),
        operand.scalar? machine module image = some (.word (.ofInt 32 value)) →
        inst.run machine module call image output = image.keep output locals.next
          ((UnaryOpcode.onConstant? .neg (.int value)).bind fun content =>
            (content.datum? machine).map .ofDatum)

section Code

variable {left right : Int}

/-- An operation on integers has no result exactly if it is a division without a quotient. -/
theorem BinaryOpcode.onInts?_eq_none_iff (opcode : BinaryOpcode) :
    opcode.onInts? left right = none ↔
      opcode ∈ [.div, .mod] ∧ (right = 0 ∨ left = -2 ^ 31 ∧ right = -1) ∨
      opcode.result? .int = none := by
  have traps : divisionTraps left right = true ↔ right = 0 ∨ left = -2 ^ 31 ∧ right = -1 := by
    simp [divisionTraps]
  cases opcode with
  | div | mod => simpa [onInts?, result?] using traps
  | _ => simp [onInts?, result?]

theorem BinaryOpcode.exists_binary {opcode : BinaryOpcode} (onInts : opcode.result? .int ≠ none)
    (env : Surroundings) {first : Operand} (firstType : first.type = .int 32) (second : Operand)
    (state : Locals × List Inst) : ∃ made, Generate.binary env opcode first second state =
      .ok made := by
  cases opcode with
  | add | sub | mul | div | mod => exact ⟨_, rfl⟩
  | eq | ne | lt | le | gt | ge =>
      simp only [Generate.binary, Generate.compareInts, firstType]
      exact ⟨_, rfl⟩
  | fadd | fsub | fmul | fdiv | fmod | feq | fne | flt | fle | fgt | fge | unlisted =>
      exact absurd rfl onInts

/-- Folding agrees with the emitted code. -/
theorem BinaryOpcode.foldsLikeCode {opcode : BinaryOpcode} (leftWord : IsWord left)
    (rightWord : IsWord right) (onInts : opcode.result? .int ≠ none) :
    opcode.FoldsLikeCode left right := by
  have leftFits := isWord_iff_fits.mp leftWord
  have rightFits := isWord_iff_fits.mp rightWord
  intro env first second locals insts firstType secondType
  obtain ⟨⟨operand, after⟩, ran⟩ := exists_binary onInts env firstType second (locals, insts)
  obtain ⟨type, inst, made, rfl, rfl⟩ := Generate.binary_ok ran
  refine ⟨type, inst, ran, fun machine module call image output isLeft isRight => ?_⟩
  cases folded : opcode.onInts? left right with
  | some content =>
      have isComputed : content.IsComputed machine (opcode.compute machine (.int (.ofInt 32 left))
          (.int (.ofInt 32 right))) := onInts?_isComputed leftFits rightFits folded
      obtain ⟨datum, isDatum, computed⟩ := isComputed
      rw [made.run_eq isLeft isRight computed, Option.bind_some, isDatum]
      rfl
  | none =>
      have trapping : ∀ operation ∈ [Arithmetic.sdiv, .srem], divisionTraps left right = true →
          operation.compute machine (.word (.ofInt 32 left)) (.word (.ofInt 32 right)) = none := by
        intro operation isQuotient traps
        rw [← faulty_ofInt leftFits rightFits] at traps
        simp only [List.mem_cons, List.not_mem_nil, or_false] at isQuotient
        rcases isQuotient with rfl | rfl <;> simp [Arithmetic.compute, traps]
      have stuck : ∀ operation ∈ [Arithmetic.sdiv, .srem], divisionTraps left right = true →
          (Inst.arithmetic locals.next operation first second).run machine module call
            image output = .stuck := by
        intro operation isQuotient traps
        simp [Inst.run, isLeft, isRight, trapping operation isQuotient traps, Activation.keep]
      cases opcode with
      | div | mod =>
          have traps : divisionTraps left right = true := by simpa [onInts?] using folded
          cases made with
          | arithmetic isOperation =>
              cases isOperation
              exact stuck _ (by decide) traps
          | icmp isPredicate | fcmp isPredicate => cases isPredicate
      | add | sub | mul | eq | ne | lt | le | gt | ge => cases folded
      | fadd | fsub | fmul | fdiv | fmod | feq | fne | flt | fle | fgt | fge | unlisted =>
          exact absurd rfl onInts

theorem negatesLikeCode (value : Int) : NegatesLikeCode value := by
  intro env operand locals insts
  refine ⟨.int 32, .arithmetic locals.next .sub (.int 0) operand, rfl, ?_⟩
  intro Double machine module call image output isValue
  have negated : BitVec.ofInt 32 0 - BitVec.ofInt 32 value = BitVec.ofInt 32 (wrap32 (-value)) := by
    rw [ofInt_wrap32, BitVec.ofInt_neg]
    exact BitVec.zero_sub _
  have isZero : (Operand.int 0).scalar? machine module image = some (.word (.ofInt 32 0)) := rfl
  rw [run_arithmetic isZero isValue rfl, negated]
  rfl

end Code

/-! ### Built functions -/

/-- Folding two integers of 32 bits is exact. -/
structure BinaryOpcode.FoldsExactly (opcode : BinaryOpcode) (left right : Int) : Prop where
  /-- What folding computes in between is cut to 32 bits, and 64 bits hold it. -/
  between : ∀ value, opcode.uncut? left right = some value →
    IsLongWord value ∧ opcode.onInts? left right = some (.int (wrap32 value))
  /-- With words of 64 bits, folding comes to the same. -/
  longWords : opcode.onLongWords? (.ofInt left) (.ofInt right) = opcode.onInts? left right
  /-- The result is that of the emitted code. -/
  code : opcode.result? .int ≠ none → opcode.FoldsLikeCode left right
  /-- The result fits again. -/
  fits : ∀ value, opcode.onInts? left right = some (.int value) → IsWord value
  /-- There is none for divisions without a quotient and for what is no operation on integers. -/
  declines : opcode.onInts? left right = none ↔
    opcode ∈ [.div, .mod] ∧ (right = 0 ∨ left = -2 ^ 31 ∧ right = -1) ∨ opcode.result? .int = none

/-- Folding the negative of an integer of 32 bits is exact. -/
structure NegatesExactly (value : Int) : Prop where
  /-- The negative itself is cut to 32 bits, and 64 bits hold it. -/
  between : IsLongWord (-value) ∧ UnaryOpcode.onConstant? .neg (.int value) =
    some (.int (wrap32 (-value)))
  /-- With words of 64 bits, folding comes to the same. -/
  longWords : (-Int64.ofInt value).toInt32.toInt = wrap32 (-value)
  /-- It is zero less the word. -/
  word : wrap32 (-value) = (0#32 - BitVec.ofInt 32 value).toInt
  /-- The result is that of the emitted code. -/
  code : NegatesLikeCode value

theorem BinaryOpcode.foldsExactly (opcode : BinaryOpcode) {left right : Int}
    (leftWord : IsWord left) (rightWord : IsWord right) : opcode.FoldsExactly left right where
  between _ uncut := ⟨uncut?_isLongWord leftWord rightWord uncut, onInts?_of_uncut? uncut⟩
  longWords := opcode.onLongWords?_eq leftWord rightWord
  code := foldsLikeCode leftWord rightWord
  fits _ folded := isWord_iff_fits.mpr (onInts?_fits folded)
  declines := opcode.onInts?_eq_none_iff

theorem negatesExactly {value : Int} (isWord : IsWord value) : NegatesExactly value where
  between := ⟨isLongWord_of_natAbs_le (by
    rw [Int.natAbs_neg]
    exact isWord.natAbs_le.trans (by decide)), rfl⟩
  longWords := by rw [← Int64.ofInt_neg, wrap32_eq]
  word := by
    rw [BitVec.zero_sub, ← BitVec.ofInt_neg, BitVec.toInt_ofInt]
    rfl
  code := negatesLikeCode value

end ScriptCompiler.IR

namespace ScriptCompiler.Lowering

open IR

variable {options : EntryOptions} {program : Program}

/-- **Folding integers is exact.**  The integers in a built function fit in 32 bits and keep doing
so, whatever passes run over it, and how often; and on integers that fit, folding agrees with the
emitted code, never needs more than 64 bits in between, and leaves alone just the divisions without
a quotient. -/
theorem build_integers_exact {origin : Origin} {tokens : List Token} {file : SourceFile}
    {built : Built} (parsed : Program.ofTokens origin tokens = .ok program)
    (run : build options file program = .ok built) :
    (∀ function ∈ built.module.functions, ∀ last,
      Relation.ReflTransGen Function.Passes function last →
      ∀ value ∈ last.ints, IsWord value) ∧
    (∀ left right, IsWord left → IsWord right → ∀ opcode : BinaryOpcode,
      opcode.FoldsExactly left right) ∧
      ∀ value, IsWord value → NegatesExactly value := by
  refine ⟨?_, fun left right leftWord rightWord opcode => opcode.foldsExactly leftWord rightWord,
    fun value => negatesExactly⟩
  obtain ⟨signature?, opened, last, translates⟩ :=
    build_translates (Program.written_of_ofTokens parsed) run
  intro function member after passes value within
  exact ((translates.sound function member).inRange.passesAll passes).ints within

/-- A sum beyond the greatest integer: `print(2147483647 + 1);`. -/
def overflowTokens : List Token :=
  [⟨.identifier, "print", {}⟩, ⟨.leftParen, "(", {}⟩, ⟨.int, "2147483647", {}⟩, ⟨.plus, "+", {}⟩,
    ⟨.int, "1", {}⟩, ⟨.rightParen, ")", {}⟩, ⟨.semicolon, ";", {}⟩]

/-- Folding twice puts the least integer in the place of the sum. -/
theorem build_integers_exact_overflow : ∃ program built,
    Program.ofTokens ⟨"sum", "<main>"⟩ overflowTokens = .ok program ∧
      build {} ⟨"sum.tss", []⟩ program = .ok built ∧
      ∃ function ∈ built.module.functions,
        -2147483648 ∈ function.foldConstants.1.foldConstants.1.ints ∧
          ∀ value ∈ function.foldConstants.1.foldConstants.1.ints, IsWord value := by
  have check : (match Program.ofTokens ⟨"sum", "<main>"⟩ overflowTokens with
      | .error _ => false
      | .ok program =>
          match build {} ⟨"sum.tss", []⟩ program with
          | .error _ => false
          | .ok built => built.module.functions.any fun function =>
              function.foldConstants.1.foldConstants.1.ints.contains (-2147483648)) = true := by
    decide +kernel
  split at check
  · cases check
  · rename_i program parsed
    split at check
    · cases check
    · rename_i built run
      obtain ⟨function, member, contains⟩ := List.any_eq_true.mp check
      have once : ∀ function : Function, function.Passes function.foldConstants.1 :=
        fun function => ⟨.folding true, _, rfl, rfl⟩
      refine ⟨program, built, parsed, run, function, member, List.contains_iff_mem.mp contains, ?_⟩
      exact (build_integers_exact parsed run).1 function member _
        (.head (once _) (.single (once _)))

end ScriptCompiler.Lowering
