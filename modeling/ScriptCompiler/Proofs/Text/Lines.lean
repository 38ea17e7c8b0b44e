import Mathlib.Data.List.DropRight
import Mathlib.Data.List.GetD
import ScriptCompiler.Text.Rune

/-!
# The lines of a text

A text that is split at a separator has one part more than separators, and each separator divides it
(`Bytes.splitOn_append_cons`).  So the part in which an offset lies is found by counting the
separators before it (`Bytes.getD_splitOn_count`).  A text without newlines is within one line.
-/

namespace ScriptCompiler.Bytes

variable {separator : UInt8}

theorem splitOn_ne_nil (separator : UInt8) (text : Bytes) : splitOn separator text ≠ [] := by
  cases text with
  | nil => simp [splitOn]
  | cons byte rest =>
      rw [splitOn]
      split
      · simp
      · split <;> simp

/-- A text is split where the separator stands. -/
theorem splitOn_append_cons (separator : UInt8) (front rest : Bytes) :
    splitOn separator (front ++ separator :: rest) =
      splitOn separator front ++ splitOn separator rest := by
  induction front with
  | nil => simp [splitOn]
  | cons byte front ih =>
      rw [List.cons_append, splitOn, splitOn, ih]
      split
      · rfl
      · cases parts : splitOn separator front with
        | nil => exact absurd parts (splitOn_ne_nil separator front)
        | cons part others => rfl

/-- What stands before the first separator is the beginning of the first part. -/
theorem splitOn_append {start : Bytes} (absent : separator ∉ start) (rest : Bytes) :
    ∃ more others, splitOn separator (start ++ rest) = (start ++ more) :: others := by
  induction start with
  | nil =>
      obtain ⟨more, others, parts⟩ := List.exists_cons_of_ne_nil (splitOn_ne_nil separator rest)
      exact ⟨more, others, parts⟩
  | cons byte start ih =>
      rw [List.mem_cons, not_or] at absent
      obtain ⟨more, others, parts⟩ := ih absent.2
      refine ⟨more, others, ?_⟩
      have other : (byte == separator) = false := by simpa using Ne.symm absent.1
      rw [List.cons_append, splitOn, other, parts]
      rfl

theorem length_splitOn (separator : UInt8) (text : Bytes) :
    (splitOn separator text).length = text.count separator + 1 := by
  induction text with
  | nil => rfl
  | cons byte rest ih =>
      rw [splitOn, List.count_cons]
      split
      · rw [List.length_cons, ih]
      · cases parts : splitOn separator rest with
        | nil => exact absurd parts (splitOn_ne_nil separator rest)
        | cons part others => rw [← ih, parts]; rfl

/-- The first part of a text ends before the first separator. -/
theorem getD_splitOn_zero (separator : UInt8) (text : Bytes) :
    (splitOn separator text).getD 0 [] = text.takeWhile fun byte => byte != separator := by
  induction text with
  | nil => rfl
  | cons byte rest ih =>
      rw [splitOn, List.takeWhile_cons]
      cases same : byte == separator with
      | true => simp [bne, same]
      | false =>
          cases parts : splitOn separator rest with
          | nil => exact absurd parts (splitOn_ne_nil separator rest)
          | cons part others =>
              rw [parts, List.getD_cons_zero] at ih
              simp [bne, same, ih]

/-- A text is its last part, behind a separator if there is one. -/
theorem rdropWhile_cases (separator : UInt8) (text : Bytes) :
    (text.rdropWhile fun byte => byte != separator) = [] ∨
      ∃ above, (text.rdropWhile fun byte => byte != separator) = above ++ [separator] := by
  rcases List.eq_nil_or_concat' (text.rdropWhile fun byte => byte != separator) with
    empty | ⟨above, last, split⟩
  · exact .inl empty
  · have ends := List.rdropWhile_last_not (fun byte => byte != separator) text (by simp [split])
    have isSeparator : last = separator := by simpa [split] using ends
    exact .inr ⟨above, by rw [split, isSeparator]⟩

/-- Behind so many separators stands the part of a text that they begin. -/
theorem getD_splitOn_count (separator : UInt8) (front rest : Bytes) :
    (splitOn separator (front ++ rest)).getD (front.count separator) [] =
      (front.rtakeWhile fun byte => byte != separator) ++
        rest.takeWhile fun byte => byte != separator := by
  have split := @List.rdropWhile_append_rtakeWhile _ (fun byte => byte != separator) front
  have plain : ∀ byte ∈ front.rtakeWhile fun byte => byte != separator,
    (byte != separator) = true :=
    fun _ => List.mem_rtakeWhile_imp
  generalize (front.rtakeWhile fun byte => byte != separator) = last at split plain ⊢
  have none : last.count separator = 0 :=
    List.count_eq_zero.mpr fun member => absurd (plain _ member) (by simp)
  have goesOn : (splitOn separator (last ++ rest)).getD 0 [] =
      last ++ rest.takeWhile fun byte => byte != separator := by
    rw [getD_splitOn_zero, List.takeWhile_append_of_pos plain]
  rcases rdropWhile_cases separator front with empty | ⟨above, ends⟩
  · obtain rfl : last = front := by rw [← split, empty, List.nil_append]
    rw [none, goesOn]
  · rw [ends] at split
    -- The last separator of the front ends as many parts as the front has separators.
    have counted : front.count separator = (splitOn separator above).length := by
      rw [← split, length_splitOn, List.count_append, List.count_append, none]
      simp
    rw [counted, ← split, List.append_assoc, List.append_assoc, List.singleton_append,
      splitOn_append_cons, List.getD_append_right _ _ _ _ le_rfl, Nat.sub_self, goesOn]

/-! ### Texts within one line -/

/-- A text without a newline. -/
def OneLine (text : Bytes) : Prop := 0x0A ∉ text

instance : DecidablePred OneLine := fun text => inferInstanceAs (Decidable (0x0A ∉ text))

@[simp]
theorem oneLine_append {left right : Bytes} :
    OneLine (left ++ right) ↔ OneLine left ∧ OneLine right := by
  simp [OneLine, not_or]

@[simp]
theorem oneLine_nil : OneLine [] := by simp [OneLine]

@[simp]
theorem oneLine_cons {byte : UInt8} {rest : Bytes} :
    OneLine (byte :: rest) ↔ byte ≠ 0x0A ∧ OneLine rest := by
  simp [OneLine, eq_comm]

theorem OneLine.sublist {text part : Bytes} (oneLine : OneLine text) (within : part ⊆ text) :
    OneLine part := fun member => oneLine (within member)

/-- A text within one line is one part. -/
theorem OneLine.splitOn_eq {text : Bytes} (oneLine : OneLine text) :
    splitOn 0x0A text = [text] := by
  induction text with
  | nil => rfl
  | cons byte rest ih =>
      rw [oneLine_cons] at oneLine
      have other : (byte == 0x0A) = false := by simpa using oneLine.1
      rw [splitOn, other, ih oneLine.2]
      rfl

end ScriptCompiler.Bytes
