import Mathlib.Data.List.Basic
import ScriptCompiler.Text.Rune

/-!
# Numbers behind names

The bytes of a string are its encoding in UTF-8 (`Bytes.ofString_eq`), so that it need not be
decoded where something is decided about a text that is written out.

A number is written with digits alone, and different numbers are written differently.  So a name
that ends in a separator and a number can be taken apart again, and is no name that ends in a
letter.
-/

namespace ScriptCompiler

/-- A character is spelt as in UTF-8. -/
theorem Rune.encode_toNat (char : Char) : encode char.toNat = String.utf8EncodeChar char := by
  have bounds : char.toNat < 0xD800 ∨ 0xDFFF < char.toNat ∧ char.toNat < 0x110000 := char.valid
  have scalar : isScalar char.toNat = true := by
    simpa [isScalar] using bounds
  have same : char.val.toNat = char.toNat := rfl
  unfold encode String.utf8EncodeChar
  simp only [scalar, if_true, same, Nat.toUInt8, ← Nat.lt_succ_iff, Nat.add_comm]
  generalize char.toNat = value at bounds
  unfold Rune at *
  split
  · rfl
  · split
    · rw [Nat.mod_eq_of_lt (show value / 64 < 32 by omega)]
    · split
      · rw [Nat.mod_eq_of_lt (show value / 4096 < 16 by omega)]
      · rw [Nat.mod_eq_of_lt (show value / 262144 < 8 by omega)]

namespace Bytes

theorem ofString_eq (string : String) : ofString string = string.toByteArray.data.toList := by
  conv_rhs => rw [← String.ofList_toList (s := string), String.toByteArray_ofList, List.utf8Encode]
  simp [ofString, Rune.encode_toNat]

/-- A decimal digit. -/
def IsDigit (byte : UInt8) : Prop := 0x30 ≤ byte ∧ byte ≤ 0x39

instance : DecidablePred IsDigit := fun byte =>
  inferInstanceAs (Decidable (0x30 ≤ byte ∧ byte ≤ 0x39))

theorem isDigit_iff {char : Char} : char.isDigit = true ↔ 48 ≤ char.toNat ∧ char.toNat ≤ 57 := by
  simp only [Char.isDigit, Bool.and_eq_true, decide_eq_true_eq, ge_iff_le, UInt32.le_iff_toNat_le]
  rfl

theorem encode_of_lt {rune : Rune} (ascii : rune < 0x80) :
    Rune.encode rune = [UInt8.ofNat rune] := by
  have scalar : Rune.isScalar rune = true := by
    simp only [Rune.isScalar, Bool.or_eq_true, decide_eq_true_eq]
    exact .inl (Nat.lt_trans ascii (by decide))
  simp only [Rune.encode, scalar, if_true, if_pos ascii, Nat.toUInt8]

/-- A number is written as one byte for each digit. -/
theorem ofNat_eq (number : Nat) :
    ofNat number = (Nat.toDigits 10 number).map fun char => UInt8.ofNat char.toNat := by
  rw [ofNat, ofString, Nat.toList_repr, List.map_eq_flatMap]
  refine List.flatMap_congr fun char member => encode_of_lt ?_
  have bounds := isDigit_iff.mp (Nat.isDigit_of_mem_toDigits (by decide) (by decide) member)
  exact Nat.lt_of_le_of_lt bounds.2 (by decide)

theorem toNat_digit {char : Char} (digit : char.isDigit = true) :
    (UInt8.ofNat char.toNat).toNat = char.toNat := by
  have bounds := isDigit_iff.mp digit
  rw [UInt8.toNat_ofNat']
  exact Nat.mod_eq_of_lt (Nat.lt_of_le_of_lt bounds.2 (by decide))

theorem isDigit_of_mem_ofNat {number : Nat} {byte : UInt8} (member : byte ∈ ofNat number) :
    IsDigit byte := by
  rw [ofNat_eq, List.mem_map] at member
  obtain ⟨char, within, rfl⟩ := member
  have digit := Nat.isDigit_of_mem_toDigits (by decide) (by decide) within
  simp only [IsDigit, UInt8.le_iff_toNat_le, toNat_digit digit]
  exact isDigit_iff.mp digit

theorem ofNat_ne_nil (number : Nat) : ofNat number ≠ [] := by
  rw [ofNat_eq]
  simp [Nat.toDigits_ne_nil]

/-- A number can be read from its digits. -/
theorem ofNat_injective : Function.Injective ofNat := by
  have read : ∀ number, (ofNat number).map (fun byte => Char.ofNat byte.toNat) =
      Nat.toDigits 10 number := by
    intro number
    rw [ofNat_eq, List.map_map]
    refine (List.map_congr_left fun char member => ?_).trans (List.map_id _)
    have digit := Nat.isDigit_of_mem_toDigits (by decide) (by decide) member
    simp only [Function.comp_apply, toNat_digit digit, Char.ofNat_toNat, id]
  intro first second same
  have digits : Nat.toDigits 10 first = Nat.toDigits 10 second := by
    rw [← read, ← read, same]
  rw [← Nat.ofDigitChars_ten_toDigits (n := first), digits, Nat.ofDigitChars_ten_toDigits]

/-- A name that ends in a byte that is no digit and a number can be taken apart. -/
theorem append_cons_ofNat_inj {first second : Bytes} {leftMark rightMark : UInt8}
    (leftPlain : ¬ IsDigit leftMark) (rightPlain : ¬ IsDigit rightMark) {left right : Nat}
    (same : first ++ leftMark :: ofNat left = second ++ rightMark :: ofNat right) :
    first = second ∧ leftMark = rightMark ∧ left = right := by
  have digits : ∀ number, ∀ byte ∈ (ofNat number).reverse, decide (IsDigit byte) = true := by
    intro number byte member
    exact decide_eq_true (isDigit_of_mem_ofNat (List.mem_reverse.mp member))
  have number : ∀ (name : Bytes) (mark : UInt8) (number : Nat), ¬ IsDigit mark →
      (name ++ mark :: ofNat number).reverse.takeWhile (fun byte => decide (IsDigit byte)) =
        (ofNat number).reverse := by
    intro name mark number plain
    rw [List.reverse_append, List.reverse_cons, List.append_assoc,
      List.takeWhile_append_of_pos (digits number)]
    simp [plain]
  have rest : ∀ (name : Bytes) (mark : UInt8) (number : Nat), ¬ IsDigit mark →
      (name ++ mark :: ofNat number).reverse.dropWhile (fun byte => decide (IsDigit byte)) =
        mark :: name.reverse := by
    intro name mark number plain
    rw [List.reverse_append, List.reverse_cons, List.append_assoc,
      List.dropWhile_append_of_pos (digits number)]
    simp [plain]
  have numbers := number first leftMark left leftPlain
  have names := rest first leftMark left leftPlain
  rw [same, number _ _ _ rightPlain] at numbers
  rw [same, rest _ _ _ rightPlain, List.cons.injEq] at names
  exact ⟨(List.reverse_injective names.2).symm, names.1.symm,
    (ofNat_injective (List.reverse_injective numbers)).symm⟩

/-- A name that ends in a separator and a number can be taken apart. -/
theorem append_ofNat_inj {first second : Bytes} {separator : UInt8} (plain : ¬ IsDigit separator)
    {left right : Nat}
    (same : first ++ separator :: ofNat left = second ++ separator :: ofNat right) :
    first = second ∧ left = right := by
  obtain ⟨names, -, numbers⟩ := append_cons_ofNat_inj plain plain same
  exact ⟨names, numbers⟩

/-- A name with a number at its end ends in a digit. -/
theorem getLast?_append_ofNat (name : Bytes) (number : Nat) :
    ∃ byte ∈ (name ++ ofNat number).getLast?, IsDigit byte := by
  rw [List.getLast?_append_of_ne_nil _ (ofNat_ne_nil number)]
  refine ⟨(ofNat number).getLast (ofNat_ne_nil number), List.getLast?_eq_some_getLast _, ?_⟩
  exact isDigit_of_mem_ofNat (List.getLast_mem _)

end Bytes

end ScriptCompiler
