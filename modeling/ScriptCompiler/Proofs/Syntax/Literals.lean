import Mathlib.Data.List.Induction
import ScriptCompiler.Proofs.Syntax.Grammar

/-!
# Literals

The readers of numerals take exactly the numerals of the grammar, so that a token is read as a
literal exactly if it spells one (`literal_eq_ok`).
-/

namespace ScriptCompiler.Parser

open Grammar

/-- The value of digits read from the left. -/
def digitsValue (digits : Bytes) : Nat :=
  digits.foldl (fun value byte => value * 10 + (byte.toNat - 0x30)) 0

theorem isDigit_iff {byte : UInt8} : Rune.isDigit byte.toNat = true ↔ Bytes.IsDigit byte := by
  simp only [Rune.isDigit, Bool.and_eq_true, decide_eq_true_eq, Bytes.IsDigit,
    UInt8.le_iff_toNat_le]
  rfl

theorem digits_iff {digits : Bytes} {value : Nat} :
    Digits digits value ↔ digits ≠ [] ∧ (∀ byte ∈ digits, Bytes.IsDigit byte) ∧
      value = digitsValue digits := by
  constructor
  · intro derived
    induction derived with
    | one digit => simp [digitsValue, digit]
    | more derived digit ih =>
        obtain ⟨-, all, rfl⟩ := ih
        refine ⟨by simp, ?_, by simp [digitsValue]⟩
        intro byte member
        rcases List.mem_append.mp member with here | there
        · exact all byte here
        · exact List.mem_singleton.mp there ▸ digit
  · rintro ⟨nonempty, all, rfl⟩
    induction digits using List.reverseRecOn with
    | nil => exact absurd rfl nonempty
    | append_singleton front digit ih =>
        have last : Bytes.IsDigit digit := all digit (by simp)
        cases front with
        | nil => simpa [digitsValue] using Digits.one last
        | cons first front =>
            have earlier := ih (by simp) fun byte member => all byte (List.mem_append_left _ member)
            simpa [digitsValue] using Digits.more earlier last

theorem natural?_eq_some {text : Bytes} {value : Nat} :
    Numeral.natural? text = some value ↔ Digits text value := by
  rw [digits_iff, Numeral.natural?]
  split
  · rename_i bad
    simp only [Bool.or_eq_true, List.isEmpty_iff, Bool.not_eq_true', List.all_eq_false,
      isDigit_iff] at bad
    rcases bad with empty | ⟨byte, member, other⟩
    · simp [empty]
    · simp only [reduceCtorEq, false_iff, not_and]
      exact fun _ all => absurd (all byte member) other
  · rename_i good
    simp only [Bool.or_eq_true, List.isEmpty_iff, Bool.not_eq_true', not_or, Bool.not_eq_false,
      List.all_eq_true, isDigit_iff] at good
    simp only [Option.some.injEq, digitsValue, eq_comm, good.1, ne_eq, not_false_eq_true, true_and]
    exact ⟨fun same => ⟨good.2, same⟩, And.right⟩

/-- Digits begin with no sign. -/
theorem takeSign_of_digits {digits : Bytes} {value : Nat} (derived : Digits digits value) :
    Numeral.takeSign digits = (false, digits) := by
  obtain ⟨-, all, -⟩ := digits_iff.mp derived
  cases digits with
  | nil => rfl
  | cons first rest =>
      have digit := all first (by simp)
      unfold Numeral.takeSign
      split
      · rename_i same
        cases same
        exact absurd digit (by decide)
      · rename_i same
        cases same
        exact absurd digit (by decide)
      · rfl

theorem integer?_eq (text : Bytes) :
    Numeral.integer? text = (Numeral.natural? (Numeral.takeSign text).2).map fun number : Nat =>
      if (Numeral.takeSign text).1 then -(number : Int) else number := by
  dsimp only [Numeral.integer?]
  cases Numeral.natural? (Numeral.takeSign text).2 <;> rfl

theorem integer?_eq_some {text : Bytes} {value : Int} :
    Numeral.integer? text = some value ↔ Grammar.Decimal text value := by
  rw [integer?_eq]
  simp only [Option.map_eq_some_iff, natural?_eq_some]
  constructor
  · rintro ⟨number, digits, rfl⟩
    unfold Numeral.takeSign at digits ⊢
    split at digits
    · exact .plus digits
    · exact .minus digits
    · exact .plain digits
  · intro derived
    cases derived with
    | @plain _ number digits =>
        rw [takeSign_of_digits digits]
        exact ⟨number, digits, rfl⟩
    | @plus _ number digits => exact ⟨number, digits, rfl⟩
    | @minus _ number digits => exact ⟨number, digits, rfl⟩

theorem int32?_eq_some {text : Bytes} {value : Int} :
    Numeral.int32? text = some value ↔
      Grammar.Decimal text value ∧ -2147483648 ≤ value ∧ value ≤ 2147483647 := by
  rw [Numeral.int32?, Option.filter_eq_some_iff, integer?_eq_some]
  simp

/-- The kinds of tokens that are literals. -/
def literalKinds : List TokenKind := [.int, .float, .string, .trueKeyword, .falseKeyword]

theorem literal_eq_ok {token : Token} {expression : Expr} (listed : token.kind ∈ literalKinds) :
    literal token = .ok expression ↔
      ∃ value, Spells token value ∧ expression = .literal token value := by
  simp only [literalKinds, List.mem_cons, List.not_mem_nil, or_false] at listed
  constructor
  · intro run
    rcases listed with int | float | string | isTrue | isFalse
    · simp only [literal, int] at run
      split at run
      · rename_i value found
        obtain ⟨decimal, low, high⟩ := int32?_eq_some.mp found
        cases run
        exact ⟨_, .int int decimal low high, rfl⟩
      · cases run
    · simp only [literal, float] at run
      split at run
      · rename_i value found
        cases run
        exact ⟨_, .float float found, rfl⟩
      · cases run
    · simp only [literal, string, Except.ok.injEq] at run
      exact ⟨_, .string string, run.symm⟩
    · simp only [literal, isTrue, Except.ok.injEq] at run
      exact ⟨_, .true_ isTrue, run.symm⟩
    · simp only [literal, isFalse, Except.ok.injEq] at run
      exact ⟨_, .false_ isFalse, run.symm⟩
  · rintro ⟨value, spells, rfl⟩
    cases spells with
    | int isInt decimal low high => simp [literal, isInt, int32?_eq_some.mpr ⟨decimal, low, high⟩]
    | float isFloat found => simp [literal, isFloat, found]
    | string isString => simp [literal, isString]
    | true_ isTrue => simp [literal, isTrue]
    | false_ isFalse => simp [literal, isFalse]

theorem literal_eq_error {token : Token} {error : SyntaxError}
    (run : literal token = .error error) :
    error.token = some token ∧ error.fault ≠ .tooDeep := by
  unfold literal at run
  split at run
  · split at run <;> cases run
    exact ⟨rfl, by simp⟩
  · split at run <;> cases run
    exact ⟨rfl, by simp⟩
  · cases run
  · cases run

end ScriptCompiler.Parser
