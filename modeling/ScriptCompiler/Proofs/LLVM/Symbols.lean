import ScriptCompiler.LLVM.Listing
import ScriptCompiler.LLVM.Generate
import ScriptCompiler.Proofs.Text.Digits
import ScriptCompiler.Proofs.Text.Lines

/-!
# Functions that a listing defines

A listing is text, and the functions that it defines are looked for line by line.  The text of each
function begins a line, whatever names and constants stand around it, so a function with a plain
name is found under that name (`Module.name_mem_definedNames`).
-/

namespace ScriptCompiler

namespace Bytes

/-! ### Lines -/

/-- A place in a text where a line begins. -/
def LineStart (front : Bytes) : Prop := front = [] ∨ ∃ earlier, front = earlier ++ [0x0A]

theorem LineStart.append {front more : Bytes} (outer : LineStart front) (inner : LineStart more) :
    LineStart (front ++ more) := by
  rcases inner with rfl | ⟨earlier, rfl⟩
  · simpa using outer
  · exact .inr ⟨front ++ earlier, by simp⟩

/-- A text at the beginning of a line begins a line. -/
theorem LineStart.mem_splitOn {front start : Bytes} (begins : LineStart front)
    (absent : 0x0A ∉ start) (rest : Bytes) :
    ∃ more, start ++ more ∈ splitOn 0x0A (front ++ (start ++ rest)) := by
  obtain ⟨more, others, parts⟩ := splitOn_append absent rest
  refine ⟨more, ?_⟩
  rcases begins with rfl | ⟨earlier, rfl⟩
  · simp [parts]
  · rw [List.append_assoc, List.singleton_append, splitOn_append_cons, parts]
    simp

theorem join_cons_cons (separator part next : Bytes) (others : List Bytes) :
    join separator (part :: next :: others) = part ++
      (separator ++ join separator (next :: others)) := by
  simp [join, List.intercalate, List.intersperse]

/-- Parts begin lines if the separator ends a line. -/
theorem lineStart_of_mem_join {more part : Bytes} {parts : List Bytes} (member : part ∈ parts) :
    ∃ front rest, join (more ++ [0x0A]) parts = front ++ (part ++ rest) ∧ LineStart front := by
  induction parts with
  | nil => cases member
  | cons first others ih =>
      cases others with
      | nil =>
          cases List.mem_singleton.mp member
          exact ⟨[], [], by simp [join, List.intercalate], .inl rfl⟩
      | cons next others =>
          rw [join_cons_cons]
          rcases List.mem_cons.mp member with rfl | later
          · exact ⟨[], _, rfl, .inl rfl⟩
          · obtain ⟨front, rest, same, begins⟩ := ih later
            have ends : LineStart (first ++ (more ++ [0x0A])) := .inr ⟨first ++ more, by simp⟩
            exact ⟨_, rest, by rw [same, ← List.append_assoc, ← List.append_assoc],
              ends.append begins⟩

end Bytes

namespace LLVM

/-- The beginning of the text of a function, up to its parameters. -/
def Function.opening (function : Function) : Bytes :=
  "define " ++ function.result.text ++ " @" ++ nameText function.name ++ "("

/-- A type is written with letters, digits and stars. -/
theorem LType.text_bytes (type : LType) :
    ∀ byte ∈ type.text, isNameByte byte = true ∨ byte = 0x2A := by
  have letters : ∀ text : Bytes, text.all isNameByte = true →
      ∀ byte ∈ text, isNameByte byte = true ∨ byte = 0x2A :=
    fun _ all byte member => .inl (List.all_eq_true.mp all byte member)
  induction type with
  | void => exact letters _ (by decide)
  | double => exact letters _ (by decide)
  | int bits =>
      intro byte member
      rw [LType.text, List.mem_append] at member
      rcases member with letter | digit
      · exact letters _ (by decide) byte letter
      · have bounds := Bytes.isDigit_of_mem_ofNat digit
        left
        simp only [isNameByte, Bool.or_eq_true, Bool.and_eq_true, decide_eq_true_eq]
        exact .inl (.inl (.inl (.inl (.inl (.inl bounds)))))
  | pointer content ih =>
      intro byte member
      rw [LType.text, List.mem_append] at member
      rcases member with inner | star
      · exact ih byte inner
      · have single : Bytes.ofString "*" = [0x2A] := by decide
        rw [single, List.mem_singleton] at star
        exact .inr star

theorem LType.notMem_text (type : LType) {byte : UInt8}
    (foreign : isNameByte byte = false ∧ byte ≠ 0x2A) : byte ∉ type.text := by
  intro member
  rcases type.text_bytes byte member with named | star
  · rw [foreign.1] at named
    cases named
  · exact foreign.2 star

theorem Function.text_eq_opening (function : Function) :
    ∃ tail, function.text = function.opening ++ tail := by
  unfold Function.text Function.opening
  simp only [List.append_assoc]
  exact ⟨_, rfl⟩

/-- The text of a function begins a line of the module. -/
theorem Module.opening_lineStart {module : Module} {function : Function}
    (member : function ∈ module.functions) :
    ∃ front rest, module.text = front ++ (function.opening ++ rest) ∧ Bytes.LineStart front := by
  have newline : Bytes.ofString "\n" = [] ++ [0x0A] := by decide
  have newlines : Bytes.ofString "\n\n" = [0x0A] ++ [0x0A] := by decide
  have written : function.text ∈
      module.declarations.map Declaration.text ++ module.functions.map Function.text :=
    List.mem_append_right _ (List.mem_map_of_mem member)
  obtain ⟨tail, opens⟩ := function.text_eq_opening
  obtain ⟨front, rest, inner, begins⟩ := Bytes.lineStart_of_mem_join written
  have filled : (module.declarations.map Declaration.text ++
      module.functions.map Function.text).isEmpty = false :=
    List.isEmpty_eq_false_iff.mpr (List.ne_nil_of_mem written)
  have body : Bytes.onlyIf (!(module.declarations.map Declaration.text ++
      module.functions.map Function.text).isEmpty) (Bytes.join ([0x0A] ++ [0x0A])
        (module.declarations.map Declaration.text ++ module.functions.map Function.text) ++
          Bytes.ofString "\n") = front ++
            (function.opening ++ (tail ++ (rest ++ Bytes.ofString "\n"))) := by
    rw [filled, inner, opens]
    simp [Bytes.onlyIf]
  unfold Module.text
  dsimp only
  rw [newlines, body, newline]
  generalize body_ : front ++ (function.opening ++ (tail ++ (rest ++ ([] ++ [0x0A])))) = body at *
  have there : ∀ header texts : Bytes, body ∈ [header, texts, body].filter fun part =>
    !part.isEmpty := by
    intro header texts
    refine List.mem_filter.mpr ⟨by simp, ?_⟩
    simp [← body_]
  obtain ⟨outerFront, outerRest, outer, outerBegins⟩ := Bytes.lineStart_of_mem_join (there _ _)
  rw [outer, ← body_]
  exact ⟨outerFront ++ front, _, by simp only [List.append_assoc]; rfl, outerBegins.append begins⟩

theorem dropWhile_append_cons {front rest : Bytes} {mark : UInt8} (absent : mark ∉ front) :
    (front ++ mark :: rest).dropWhile (· != mark) = mark :: rest := by
  rw [List.dropWhile_append_of_pos]
  · simp
  · intro byte member
    simpa using ne_of_mem_of_not_mem member absent

theorem takeWhile_append_cons {front rest : Bytes} {mark : UInt8} (absent : mark ∉ front) :
    (front ++ mark :: rest).takeWhile (· != mark) = front := by
  rw [List.takeWhile_append_of_pos]
  · simp
  · intro byte member
    simpa using ne_of_mem_of_not_mem member absent

theorem dropWhile_eq_self {name : Bytes} {mark : UInt8} (absent : mark ∉ name) :
    name.dropWhile (· == mark) = name := by
  cases name with
  | nil => rfl
  | cons byte rest =>
      refine List.dropWhile_cons_of_neg ?_
      simpa using ne_of_mem_of_not_mem List.mem_cons_self absent

/-- A function whose name is written as it is is found under that name. -/
theorem Module.name_mem_definedNames {module : Module} {function : Function}
    (member : function ∈ module.functions) (written : nameText function.name = function.name)
    (plain : ∀ byte ∈ function.name, isNameByte byte = true) :
    function.name ∈ definedNames module.text := by
  obtain ⟨front, rest, same, begins⟩ := Module.opening_lineStart member
  have foreign : ∀ byte, isNameByte byte = false → byte ∉ function.name := by
    intro byte foreign member
    rw [plain byte member] at foreign
    cases foreign
  have split : function.opening =
      (Bytes.ofString "define " ++ (function.result.text ++ Bytes.ofString " ")) ++
        0x40 :: (function.name ++ [0x28]) := by
    have sign : Bytes.ofString " @" = Bytes.ofString " " ++ [0x40] := by decide
    have parenthesis : Bytes.ofString "(" = [0x28] := by decide
    rw [Function.opening, written, sign, parenthesis]
    simp only [List.append_assoc, List.cons_append, List.nil_append]
  have before : ∀ byte, isNameByte byte = false ∧ byte ≠ 0x2A →
      byte ∉ Bytes.ofString "define " ++ Bytes.ofString " " →
      byte ∉ Bytes.ofString "define " ++ (function.result.text ++ Bytes.ofString " ") := by
    intro byte foreign absent
    simp only [List.mem_append, not_or] at absent ⊢
    exact ⟨absent.1, function.result.notMem_text foreign, absent.2⟩
  have absent : 0x0A ∉ function.opening := by
    rw [split]
    refine fun member => (List.mem_append.mp member).elim (before _ (by decide) (by decide)) ?_
    simpa using foreign 0x0A (by decide)
  obtain ⟨more, line⟩ := begins.mem_splitOn absent rest
  rw [definedNames, List.mem_eraseDups, List.mem_filterMap]
  refine ⟨_, same ▸ line, ?_⟩
  have starts : (Bytes.ofString "define ").isPrefixOf (function.opening ++ more) = true := by
    rw [split, List.append_assoc, List.append_assoc, List.isPrefixOf_iff_prefix]
    exact List.prefix_append _ _
  rw [starts, split, List.append_assoc, List.cons_append,
    dropWhile_append_cons (before _ (by decide) (by decide)),
    List.append_assoc, List.singleton_append]
  simp only [Bool.not_true, Bool.false_eq_true, if_false]
  rw [takeWhile_append_cons (foreign _ (by decide)), dropWhile_eq_self (foreign _ (by decide)),
    dropWhile_eq_self (by simpa using foreign 0x22 (by decide)), List.reverse_reverse]

end LLVM

end ScriptCompiler
