import ScriptCompiler.Proofs.LLVM.Symbols
import ScriptCompiler.Proofs.Text.Lines

/-!
# The lines of a listing

Whatever stands in a module, its text is divided into lines by its own layout alone: names, numbers
and constants are written without newlines.  A line that begins with the definition of a function is
the first line of the text of a function, so the functions that are found in a listing are those
that it defines, each under the name that can be read off its first line
(`Module.mem_definedNames_iff`).
-/

namespace ScriptCompiler

namespace Bytes

/-! ### Numbers and joined texts -/

@[simp]
theorem oneLine_ofNat (number : Nat) : OneLine (ofNat number) := by
  intro member
  exact absurd (isDigit_of_mem_ofNat member) (by decide)

@[simp]
theorem oneLine_ofInt (value : Int) : OneLine (ofInt value) := by
  cases value with
  | ofNat number => exact oneLine_ofNat number
  | negSucc number => exact oneLine_cons.mpr ⟨by decide, oneLine_ofNat _⟩

@[simp]
theorem oneLine_filled {byte : UInt8} (other : byte ≠ 0x0A) (count : Nat) :
    OneLine (filled count byte) := by
  intro member
  exact other (List.eq_of_mem_replicate member).symm

theorem oneLine_join {separator : Bytes} {parts : List Bytes} (apart : OneLine separator)
    (each : ∀ part ∈ parts, OneLine part) : OneLine (join separator parts) := by
  induction parts with
  | nil => exact oneLine_nil
  | cons first others ih =>
      rw [List.forall_mem_cons] at each
      cases others with
      | nil => simpa [join, List.intercalate] using each.1
      | cons next others =>
          rw [join_cons_cons]
          simp [each.1, apart, ih each.2]

end Bytes

open Bytes

/-! ### Numbers as written -/

theorem Decimal.oneLine_exponentText (exponent : Int) :
    OneLine (Decimal.exponentText exponent) := by
  unfold Decimal.exponentText
  dsimp only
  split <;> split <;> simp +decide

theorem Decimal.oneLine_text (layout : Decimal.Layout) (decimal : Decimal) :
    OneLine (decimal.text layout) := by
  have digits := oneLine_ofNat decimal.digits
  unfold Decimal.text
  dsimp only
  generalize Bytes.ofNat decimal.digits = written at digits ⊢
  generalize (if (decimal.digits == 0) = true then (0 : Int)
    else decimal.exponent + ((written.length - 1 : Nat) : Int)) = first
  split
  · split
    · exact oneLine_nil
    · rw [oneLine_cons] at digits
      exact oneLine_cons.mpr ⟨digits.1, oneLine_exponentText _⟩
    · rw [oneLine_cons] at digits
      simp [digits, oneLine_exponentText]
  · split
    · simp +decide [digits]
    · split
      · simp +decide [digits]
      · rw [oneLine_append, oneLine_cons]
        exact ⟨digits.sublist (List.take_subset _ _), by decide,
          digits.sublist (List.drop_subset _ _)⟩

theorem Binary64.oneLine_text (layout : Decimal.Layout) (value : Float) :
    OneLine (Binary64.text layout value) := by
  unfold Binary64.text
  split
  · decide
  · split <;> decide
  · split <;> simp +decide [Decimal.oneLine_text]

namespace LLVM

theorem lt_of_mem_lowDigits {base fuel number digit : Nat} (positive : 0 < base)
    (member : digit ∈ lowDigits base fuel number) : digit < base := by
  induction fuel generalizing number with
  | zero => cases member
  | succ fuel ih =>
      rw [lowDigits] at member
      split at member
      · cases member
      · rcases List.mem_cons.mp member with rfl | later
        · exact Nat.mod_lt _ positive
        · exact ih later

@[simp]
theorem oneLine_capitalHex (number : Nat) : OneLine (capitalHex number) := by
  unfold capitalHex
  split
  · decide
  · intro member
    obtain ⟨digit, within, same⟩ := List.mem_map.mp member
    have small := lt_of_mem_lowDigits (by decide) (List.mem_reverse.mp within)
    have other : ∀ digit < 16,
        (if digit < 10 then (0x30 + digit).toUInt8 else (0x37 + digit).toUInt8) ≠ 0x0A := by decide
    exact other digit small same

@[simp]
theorem oneLine_intText (value : Int) : OneLine (intText value) := by
  unfold intText
  split
  · simp +decide
  · exact oneLine_ofInt value

theorem oneLine_withFraction {text : Bytes} (written : OneLine text) :
    OneLine (withFraction text) := by
  unfold withFraction
  split
  · exact written
  · rw [oneLine_append, oneLine_append]
    exact ⟨⟨written.sublist (List.takeWhile_subset _), by decide⟩,
      written.sublist (List.dropWhile_sublist _).subset⟩

@[simp]
theorem oneLine_doubleText (value : Float) : OneLine (doubleText value) := by
  unfold doubleText
  split
  · decide
  · split
    · split
      · exact oneLine_withFraction (Binary64.oneLine_text doubleLayout value)
      · simp +decide
    · simp +decide

/-! ### Names as written -/

theorem isPlainByte_escapedByte (byte : UInt8) :
    escapedByte byte = 0x5C :: (escapedByte byte).tail ∧
      ∀ other ∈ (escapedByte byte).tail, isPlainByte other = true ∧ other ≠ 0x28 := by
  let digit : Nat → UInt8 := fun value =>
    if value < 10 then (0x30 + value).toUInt8 else (0x37 + value).toUInt8
  have each : ∀ value < 16, isPlainByte (digit value) = true ∧ digit value ≠ 0x28 := by decide
  refine ⟨rfl, fun other member => ?_⟩
  rcases List.mem_cons.mp member with rfl | low
  · exact each _ (Nat.div_lt_of_lt_mul byte.toNat_lt)
  · rw [List.mem_singleton.mp low]
    exact each _ (Nat.mod_lt _ (by decide))

/-- Between quotes stand plain bytes and backslashes. -/
theorem of_mem_quotedContent {text : Bytes} {byte : UInt8} (member : byte ∈ quotedContent text) :
    isPlainByte byte = true ∨ byte = 0x5C := by
  obtain ⟨source, -, spelt⟩ := List.mem_flatMap.mp member
  split at spelt
  · rename_i plain
    rw [List.mem_singleton.mp spelt]
    exact .inl plain
  · obtain ⟨split, plain⟩ := isPlainByte_escapedByte source
    rw [split, List.mem_cons] at spelt
    exact spelt.symm.imp (fun digit => (plain byte digit).1) id

@[simp]
theorem oneLine_quotedContent (text : Bytes) : OneLine (quotedContent text) := by
  intro member
  exact absurd (of_mem_quotedContent member) (by decide)

@[simp]
theorem oneLine_quoted (text : Bytes) : OneLine (quoted text) := by simp +decide [quoted]

theorem nameText_eq_quoted_or (name : Bytes) :
    nameText name = quoted name ∨ nameText name = name ∧ ∀ byte ∈ name, isNameByte byte = true := by
  unfold nameText
  split
  · exact .inl rfl
  · rename_i bare
    exact .inr ⟨rfl, by simpa using (not_or.mp (mt (Bool.or_eq_true _ _).mpr bare)).2⟩

@[simp]
theorem oneLine_nameText (name : Bytes) : OneLine (nameText name) := by
  rcases nameText_eq_quoted_or name with isQuoted | ⟨isBare, bytes⟩
  · rw [isQuoted]
    exact oneLine_quoted name
  · rw [isBare]
    exact fun member => absurd (bytes 0x0A member) (by decide)

/-! ### Code as written -/

@[simp]
theorem oneLine_typeText (type : LType) : OneLine type.text := type.notMem_text (by decide)

@[simp]
theorem oneLine_functionTypeText (type : FunctionType) : OneLine type.text := by
  have parts : ∀ part ∈ type.params.map LType.text ++
      (if type.variadic then [Bytes.ofString "..."] else []), OneLine part := by
    intro part member
    rcases List.mem_append.mp member with isType | dots
    · obtain ⟨param, -, rfl⟩ := List.mem_map.mp isType
      exact oneLine_typeText param
    · split at dots
      · rw [List.mem_singleton.mp dots]
        decide
      · cases dots
  have listed : OneLine (Bytes.join ", " _) := oneLine_join (by decide) parts
  simp +decide [FunctionType.text, listed]

@[simp]
theorem oneLine_operandName (operand : Operand) : OneLine operand.name := by
  unfold Operand.name
  split <;> simp +decide

@[simp]
theorem oneLine_typed (operand : Operand) : OneLine operand.typed := by
  simp +decide [Operand.typed]

@[simp]
theorem oneLine_arithmetic (operation : Arithmetic) : OneLine operation.word := by
  cases operation <;> decide

@[simp]
theorem oneLine_intPredicate (predicate : IntPredicate) : OneLine predicate.word := by
  cases predicate <;> decide

@[simp]
theorem oneLine_floatPredicate (predicate : FloatPredicate) : OneLine predicate.word := by
  cases predicate <;> decide

theorem oneLine_inst (inst : Inst) : OneLine inst.text := by
  cases inst with
  | call number callee type arguments =>
      have parts : ∀ part ∈ arguments.map Operand.typed, OneLine part := by
        intro part member
        obtain ⟨argument, -, rfl⟩ := List.mem_map.mp member
        exact oneLine_typed argument
      have passed : OneLine (Bytes.join ", " (arguments.map Operand.typed)) :=
        oneLine_join (by decide) parts
      have called : OneLine (if type.variadic = true then type.text else type.result.text) := by
        split <;> simp
      cases number <;> simp +decide [Inst.text, Inst.dest, passed, called]
  | _ => simp +decide [Inst.text, Inst.dest]

@[simp]
theorem oneLine_labelText (block : Block) : OneLine block.labelText := by
  unfold Block.labelText
  split <;> simp

@[simp]
theorem oneLine_labelRef (function : Function) (label : Option Bytes) :
    OneLine (function.labelRef label) := by
  unfold Function.labelRef
  split
  · decide
  · split <;> simp +decide

theorem oneLine_terminator (function : Function) (terminator : Terminator) :
    OneLine (function.terminatorText terminator) := by
  unfold Function.terminatorText
  split <;> simp +decide

/-! ### Reading line by line -/

/-- The name of the function whose definition a line begins, if any. -/
def lineName? (line : Bytes) : Option Bytes :=
  if !(Bytes.ofString "define ").isPrefixOf line then none
  else
    match line.dropWhile (· != 0x40) with
    | [] => none
    | _ :: rest =>
        let name := (rest.takeWhile (· != 0x28)).dropWhile (· == 0x22)
        some (name.reverse.dropWhile (· == 0x22)).reverse

/-- The names that are read off the lines of a text. -/
def lineNames (text : Bytes) : List Bytes := (Bytes.splitOn 0x0A text).filterMap lineName?

theorem definedNames_eq (text : Bytes) : definedNames text = (lineNames text).eraseDups := rfl

/-- Complete lines off which names are read, whatever comes behind them. -/
def Reads (text : Bytes) (names : List Bytes) : Prop :=
  ∀ rest, lineNames (text ++ rest) = names ++ lineNames rest

namespace Reads

variable {text text' : Bytes} {names names' : List Bytes}

theorem nil : Reads [] [] := fun _ => rfl

theorem append (reads : Reads text names) (reads' : Reads text' names') :
    Reads (text ++ text') (names ++ names') := by
  intro rest
  rw [List.append_assoc, reads, reads', List.append_assoc]

/-- A line is read on its own. -/
theorem line (oneLine : OneLine text) : Reads (text ++ [0x0A]) (lineName? text).toList := by
  intro rest
  rw [List.append_assoc, List.singleton_append, lineNames, Bytes.splitOn_append_cons,
    List.filterMap_append, oneLine.splitOn_eq, lineNames]
  cases named : lineName? text <;> simp [named]

theorem silent (oneLine : OneLine text) (quiet : lineName? text = none) :
    Reads (text ++ [0x0A]) [] := by
  simpa [quiet] using line oneLine

theorem flatMap {α : Type} {parts : List α} {spell : α → Bytes}
    (each : ∀ part ∈ parts, Reads (spell part) []) : Reads (parts.flatMap spell) [] := by
  induction parts with
  | nil => exact nil
  | cons part parts ih =>
      rw [List.forall_mem_cons] at each
      exact append each.1 (ih each.2)

theorem empty : Reads [0x0A] [] := silent oneLine_nil rfl

/-- Complete lines with empty lines between them. -/
theorem join {α : Type} {parts : List α} {spell : α → Bytes} {names : α → List Bytes}
    (each : ∀ part ∈ parts, Reads (spell part) (names part)) :
    Reads (Bytes.join [0x0A] (parts.map spell)) (parts.flatMap names) := by
  induction parts with
  | nil => exact nil
  | cons first others ih =>
      rw [List.forall_mem_cons] at each
      cases others with
      | nil => simpa [Bytes.join, List.intercalate] using each.1
      | cons next others =>
          have later := append empty (ih each.2)
          rw [List.map_cons, List.map_cons, Bytes.join_cons_cons, List.flatMap_cons]
          exact append each.1 later

/-- Parts that are complete lines but for their last newline, with empty lines between them. -/
theorem join_pairs {α : Type} {parts : List α} {spell : α → Bytes} {names : α → List Bytes}
    (each : ∀ part ∈ parts, Reads (spell part ++ [0x0A]) (names part)) (filled : parts ≠ []) :
    Reads (Bytes.join [0x0A, 0x0A] (parts.map spell) ++ [0x0A]) (parts.flatMap names) := by
  induction parts with
  | nil => exact absurd rfl filled
  | cons first others ih =>
      rw [List.forall_mem_cons] at each
      cases others with
      | nil => simpa [Bytes.join, List.intercalate] using each.1
      | cons next others =>
          have whole := append each.1 (append empty (ih each.2 (by simp)))
          rw [List.map_cons, List.map_cons, Bytes.join_cons_cons]
          simpa only [List.map_cons, List.append_assoc, List.singleton_append, List.cons_append,
            List.nil_append, List.flatMap_cons] using whole

end Reads

theorem lineName?_eq_none {line : Bytes} (other : ¬ Bytes.ofString "define " <+: line) :
    lineName? line = none := by
  have absent : (Bytes.ofString "define ").isPrefixOf line = false := by
    rw [Bool.eq_false_iff]
    exact fun begins => other (List.isPrefixOf_iff_prefix.mp begins)
  rw [lineName?, absent]
  rfl

theorem lineName?_cons {byte : UInt8} (other : byte ≠ 0x64) (rest : Bytes) :
    lineName? (byte :: rest) = none := by
  refine lineName?_eq_none fun begins => other ?_
  have spelt : Bytes.ofString "define " = 0x64 :: (Bytes.ofString "define ").tail := by decide
  rw [spelt, List.cons_prefix_cons] at begins
  exact begins.1.symm

theorem lineName?_append {start : Bytes} (other : ¬ Bytes.ofString "define " <+: start)
    (long : (Bytes.ofString "define ").length ≤ start.length) (rest : Bytes) :
    lineName? (start ++ rest) = none :=
  lineName?_eq_none fun begins =>
    other (List.prefix_of_prefix_length_le begins (List.prefix_append _ _) long)

theorem lineName?_of_noBlank {line : Bytes} (unbroken : 0x20 ∉ line) : lineName? line = none := by
  have blank : 0x20 ∈ Bytes.ofString "define " := by decide
  exact lineName?_eq_none fun begins => unbroken (begins.subset blank)

/-! ### The lines of a module -/

theorem newline_eq : Bytes.ofString "\n" = [0x0A] := by decide

theorem reads_label (block : Block) : Reads (block.labelText ++ ":\n") [] := by
  have split : Bytes.ofString ":\n" = Bytes.ofString ":" ++ [0x0A] := by decide
  rw [split, ← List.append_assoc]
  refine .silent (by simp +decide) ?_
  unfold Block.labelText
  split
  · refine lineName?_of_noBlank fun member => ?_
    rcases List.mem_append.mp member with digit | colon
    · exact absurd (Bytes.isDigit_of_mem_ofNat digit) (by decide)
    · exact absurd colon (by decide)
  · rcases nameText_eq_quoted_or block.label with isQuoted | ⟨isBare, bytes⟩
    · have quote : Bytes.ofString "\"" = [0x22] := by decide
      rw [isQuoted, quoted, quote]
      exact lineName?_cons (by decide) _
    · rw [isBare]
      refine lineName?_of_noBlank fun member => ?_
      rcases List.mem_append.mp member with named | colon
      · exact absurd (bytes _ named) (by decide)
      · exact absurd colon (by decide)

/-- Indented lines define nothing. -/
theorem reads_indented {text : Bytes} (oneLine : OneLine text) :
    Reads ("\t" ++ text ++ "\n") [] := by
  have tab : Bytes.ofString "\t" = [0x09] := by decide
  rw [tab, newline_eq]
  exact .silent (by simp [oneLine]) (lineName?_cons (by decide) _)

theorem reads_block (function : Function) (block : Block) :
    Reads (function.blockText block) [] := by
  have start : Reads (Function.blockStart block) [] :=
    (reads_label block).append (.flatMap fun inst _ => reads_indented (oneLine_inst inst))
  unfold Function.blockText
  refine @Reads.append _ _ [] [] start ?_
  split
  · exact reads_indented (oneLine_terminator function _)
  · exact .nil

/-- The name under which a function is found in a listing: its name with the escapes of the listing,
up to the first parenthesis. -/
def reportedName (name : Bytes) : Bytes := (quotedContent name).takeWhile (· != 0x28)

theorem quotedContent_of_plain {name : Bytes} (plain : ∀ byte ∈ name, isPlainByte byte = true) :
    quotedContent name = name := by
  induction name with
  | nil => rfl
  | cons byte rest ih =>
      rw [List.forall_mem_cons] at plain
      have others := ih plain.2
      rw [quotedContent] at others
      rw [quotedContent, List.flatMap_cons, others, if_pos plain.1, List.singleton_append]

theorem isPlainByte_of_isNameByte {byte : UInt8} (named : isNameByte byte = true) :
    isPlainByte byte = true ∧ byte ≠ 0x28 ∧ byte ≠ 0x22 ∧ byte ≠ 0x0A := by
  simp only [isNameByte, isPlainByte, Bool.or_eq_true, Bool.and_eq_true, decide_eq_true_eq,
    beq_iff_eq,
    bne_iff_ne, ne_eq, UInt8.le_iff_toNat_le, ← UInt8.toNat_inj, UInt8.toNat_ofNat] at named ⊢
  omega

/-- What is read of the name of a function up to the next parenthesis. -/
theorem strip_nameText (name rest : Bytes) :
    let start := ((nameText name ++ 0x28 :: rest).takeWhile (· != 0x28)).dropWhile (· == 0x22)
    (start.reverse.dropWhile (· == 0x22)).reverse = reportedName name := by
  have quoteless : 0x22 ∉ reportedName name := by
    intro member
    have inside := List.takeWhile_subset _ member
    exact absurd (of_mem_quotedContent inside) (by decide)
  have stripped : ∀ text : Bytes, 0x22 ∉ text →
      (text.reverse.dropWhile (· == 0x22)).reverse = text := by
    intro text absent
    rw [dropWhile_eq_self (by simpa using absent), List.reverse_reverse]
  rcases nameText_eq_quoted_or name with isQuoted | ⟨isBare, bytes⟩
  · have quote : Bytes.ofString "\"" = [0x22] := by decide
    rw [isQuoted, quoted, quote]
    dsimp only
    by_cases broken : 0x28 ∈ quotedContent name
    · -- The name is cut off at its first parenthesis.
      obtain ⟨front, more, split, absent⟩ := List.eq_append_cons_of_mem broken
      have reported : reportedName name = front := by
        rw [reportedName, split, takeWhile_append_cons absent]
      have cut : 0x28 ∉ 0x22 :: front := by simp [absent]
      have text : [0x22] ++ quotedContent name ++ [0x22] ++ 0x28 :: rest =
          (0x22 :: front) ++ 0x28 :: (more ++ [0x22] ++ 0x28 :: rest) := by simp [split]
      rw [reported] at quoteless ⊢
      rw [text, takeWhile_append_cons cut, List.dropWhile_cons_of_pos rfl,
        dropWhile_eq_self quoteless,
        stripped front quoteless]
    · have reported : reportedName name = quotedContent name :=
        List.takeWhile_eq_self_iff.mpr fun byte member => by
          simpa using ne_of_mem_of_not_mem member broken
      have absent : 0x28 ∉ [0x22] ++ quotedContent name ++ [0x22] := by simp [broken]
      rw [reported] at quoteless ⊢
      rw [takeWhile_append_cons absent, List.append_assoc, List.singleton_append,
        List.dropWhile_cons_of_pos rfl]
      cases content : quotedContent name with
      | nil => rfl
      | cons byte others =>
          rw [content] at quoteless
          have opens : (byte :: (others ++ [0x22])).dropWhile (· == 0x22) = byte ::
            (others ++ [0x22]) :=
            List.dropWhile_cons_of_neg
              (by simpa using ne_of_mem_of_not_mem List.mem_cons_self quoteless)
          rw [List.cons_append, opens, ← List.cons_append,
            List.reverse_append, List.reverse_singleton, List.singleton_append,
            List.dropWhile_cons_of_pos rfl, stripped _ quoteless]
  · have named := fun byte member => isPlainByte_of_isNameByte (bytes byte member)
    have reported : reportedName name = name := by
      rw [reportedName, quotedContent_of_plain fun byte member => (named byte member).1]
      exact List.takeWhile_eq_self_iff.mpr fun byte member => by simpa using (named byte member).2.1
    rw [reported] at quoteless ⊢
    rw [isBare]
    dsimp only
    rw [takeWhile_append_cons fun member => (named _ member).2.1 rfl, dropWhile_eq_self quoteless,
      stripped name quoteless]

theorem lineName?_opening (function : Function) (rest : Bytes) :
    lineName? (function.opening ++ rest) = some (reportedName function.name) := by
  have sign : Bytes.ofString " @" = Bytes.ofString " " ++ [0x40] := by decide
  have parenthesis : Bytes.ofString "(" = [0x28] := by decide
  have split : function.opening ++ rest =
      (Bytes.ofString "define " ++ (function.result.text ++ Bytes.ofString " ")) ++
        0x40 :: (nameText function.name ++ 0x28 :: rest) := by
    rw [Function.opening, sign, parenthesis]
    simp only [List.append_assoc, List.cons_append, List.nil_append]
  have signless :
    0x40 ∉ Bytes.ofString "define " ++ (function.result.text ++ Bytes.ofString " ") := by
    rw [List.mem_append, List.mem_append, not_or, not_or]
    exact ⟨by decide, function.result.notMem_text (by decide), by decide⟩
  have begins : (Bytes.ofString "define ").isPrefixOf (function.opening ++ rest) = true := by
    rw [List.isPrefixOf_iff_prefix, split, List.append_assoc]
    exact List.prefix_append _ _
  rw [lineName?, begins, split, dropWhile_append_cons signless]
  simpa using strip_nameText function.name rest

/-- The text of a function defines that function. -/
theorem reads_function (function : Function) :
    Reads (function.text ++ [0x0A]) [reportedName function.name] := by
  let param : Bytes × LType → Bytes := fun place => place.2.text ++ " %" ++ nameText place.1
  have params : OneLine (Bytes.join ", " (function.params.map param)) := by
    refine oneLine_join (by decide) fun part member => ?_
    obtain ⟨place, -, rfl⟩ := List.mem_map.mp member
    simp +decide [param]
  have opening :
    OneLine (function.opening ++ (Bytes.join ", " (function.params.map param) ++ ") \x7b")) := by
    simp +decide [Function.opening, params]
  have first := Reads.line opening
  rw [lineName?_opening] at first
  have blocks := Reads.join fun block (_ : block ∈ function.blocks) => reads_block function block
  rw [List.flatMap_eq_nil_iff.mpr fun _ _ => rfl] at blocks
  have brace : Bytes.ofString "\x7d" = [0x7D] := by decide
  have last : Reads (Bytes.ofString "\x7d" ++ [0x0A]) [] := by
    rw [brace]
    exact .silent (by decide) (lineName?_cons (by decide) _)
  have ending : Bytes.ofString ") \x7b\n" = Bytes.ofString ") \x7b" ++ [0x0A] := by decide
  have whole := (first.append blocks).append last
  rw [Function.text, ending, newline_eq]
  simpa [Function.opening, param] using whole

theorem reads_declaration (declaration : Declaration) : Reads (declaration.text ++ [0x0A]) [] := by
  let param : LType × Nat → Bytes := fun place => place.1.text ++ " %" ++ Bytes.ofNat place.2
  have parts : ∀ part ∈ declaration.type.params.zipIdx.map param ++
      (if declaration.type.variadic then [Bytes.ofString "..."] else []), OneLine part := by
    intro part member
    rcases List.mem_append.mp member with isParam | dots
    · obtain ⟨place, -, rfl⟩ := List.mem_map.mp isParam
      simp +decide [param]
    · split at dots
      · rw [List.mem_singleton.mp dots]
        decide
      · cases dots
  have listed : OneLine (Bytes.join ", " _) := oneLine_join (by decide) parts
  have split :
    declaration.text = Bytes.ofString "declare " ++ (declaration.type.result.text ++ (" @" ++
      (nameText declaration.name ++
        ("(" ++ (Bytes.join ", " (declaration.type.params.zipIdx.map param ++
        if declaration.type.variadic then [Bytes.ofString "..."] else []) ++ ")"))))) := by
    simp only [Declaration.text, List.append_assoc, param]
  rw [split]
  refine .silent
    (by simp +decide only [oneLine_append, oneLine_typeText, oneLine_nameText, listed, and_true]) ?_
  exact lineName?_append (by decide) (by decide) _

theorem reads_text (constant : Text) : Reads constant.text [] := by
  have sign : Bytes.ofString "@" = [0x40] := by decide
  rw [Text.text, newline_eq, sign]
  exact .silent (by simp +decide) (lineName?_cons (by decide) _)

theorem reads_onlyIf {condition : Bool} {text : Bytes} (reads : Reads text []) :
    Reads (Bytes.onlyIf condition text) [] := by
  cases condition with
  | true => exact reads
  | false => exact .nil

/-- The parts that are there, with an empty line between neighbours. -/
theorem reads_filled {parts : List (Bytes × List Bytes)}
    (each : ∀ part ∈ parts, Reads part.1 part.2)
    (silent : ∀ part ∈ parts, part.1 = [] → part.2 = []) :
    Reads (Bytes.join [0x0A] ((parts.map Prod.fst).filter fun part => !part.isEmpty))
      (parts.flatMap Prod.snd) := by
  have filled := Reads.join fun part (member : part ∈ parts.filter fun part => !part.1.isEmpty) =>
    each part (List.mem_filter.mp member).1
  have names : (parts.filter fun part => !part.1.isEmpty).flatMap Prod.snd =
    parts.flatMap Prod.snd := by
    clear filled each
    induction parts with
    | nil => rfl
    | cons part parts ih =>
        rw [List.forall_mem_cons] at silent
        rw [List.filter_cons, List.flatMap_cons, ← ih silent.2]
        split
        · rfl
        · rename_i empty
          rw [silent.1 (by simpa using empty), List.nil_append]
  rw [List.filter_map, ← names]
  exact filled

/-- The names that are read off the lines of a module are those of the functions that it defines. -/
theorem Module.lineNames_text (module : Module) :
    lineNames module.text = module.symbols.map reportedName := by
  let parts : List (Bytes × List Bytes) :=
    module.declarations.map (fun declaration => (declaration.text, [])) ++
      module.functions.map fun function => (function.text, [reportedName function.name])
  have texts : parts.map Prod.fst =
      module.declarations.map Declaration.text ++ module.functions.map Function.text := by
    simp [parts, Function.comp_def]
  have names : parts.flatMap Prod.snd = module.symbols.map reportedName := by
    simp [parts, List.flatMap_map, Module.symbols, Function.comp_def, ← List.map_eq_flatMap]
  have each : ∀ part ∈ parts, Reads (part.1 ++ [0x0A]) part.2 := by
    intro part member
    rcases List.mem_append.mp member with isDeclared | isDefined
    · obtain ⟨declaration, -, rfl⟩ := List.mem_map.mp isDeclared
      exact reads_declaration declaration
    · obtain ⟨function, -, rfl⟩ := List.mem_map.mp isDefined
      exact reads_function function
  have newlines : Bytes.ofString "\n\n" = [0x0A, 0x0A] := by decide
  have functions : Reads (Bytes.onlyIf (!(parts.map Prod.fst).isEmpty)
      (Bytes.join [0x0A, 0x0A] (parts.map Prod.fst) ++ [0x0A])) (parts.flatMap Prod.snd) := by
    cases defined : parts with
    | nil => exact .nil
    | cons part others =>
        rw [← defined]
        have filled : (!(parts.map Prod.fst).isEmpty) = true := by simp [defined]
        rw [filled]
        exact .join_pairs each (by simp [defined])
  have titled : ∀ title ∈ [Bytes.ofString "source_filename = ", Bytes.ofString "target triple = "],
      ∀ text, Reads (title ++ quoted text ++ [0x0A]) [] := by
    have plain : ∀ title ∈ [Bytes.ofString "source_filename = ", Bytes.ofString "target triple = "],
        OneLine title ∧ ¬ Bytes.ofString "define " <+: title ∧
          (Bytes.ofString "define ").length ≤ title.length := by decide
    intro title member text
    obtain ⟨oneLine, other, long⟩ := plain title member
    exact .silent (by simp [oneLine]) (lineName?_append other long _)
  have header : Reads
      (Bytes.onlyIf (!module.source.isEmpty)
          ("source_filename = " ++ quoted module.source ++ "\n") ++
        Bytes.onlyIf (!module.triple.isEmpty)
          ("target triple = " ++ quoted module.triple ++ "\n")) [] := by
    rw [newline_eq]
    exact (reads_onlyIf (titled _ (by simp) _)).append (reads_onlyIf (titled _ (by simp) _))
  have constants := Reads.flatMap fun constant (_ : constant ∈ module.texts) => reads_text constant
  have silent : Bytes.onlyIf (!(parts.map Prod.fst).isEmpty)
      (Bytes.join [0x0A, 0x0A] (parts.map Prod.fst) ++ [0x0A]) = [] →
      parts.flatMap Prod.snd = [] := by
    cases parts with
    | nil => exact fun _ => rfl
    | cons part others => simp [Bytes.onlyIf]
  have whole :=
    @reads_filled [(_, []), (_, []), (_, _)] (by simpa using ⟨header, constants, functions⟩)
    (by simpa using silent)
  have read := whole []
  simp only [List.map_cons, List.map_nil, List.flatMap_cons, List.flatMap_nil, List.nil_append,
    List.append_nil] at read
  rw [Module.text, newlines, ← texts, ← names, newline_eq]
  rw [newline_eq] at read
  exact read.trans (List.append_nil _)

/-- **A listing defines what its module defines**, each function under the name that is read off its
first line. -/
theorem Module.mem_definedNames_iff (module : Module) (symbol : Bytes) :
    symbol ∈ definedNames module.text ↔ ∃ name ∈ module.symbols, symbol = reportedName name := by
  rw [definedNames_eq, List.mem_eraseDups, module.lineNames_text, List.mem_map]
  exact exists_congr fun name => and_congr_right fun _ => eq_comm

end LLVM

end ScriptCompiler
