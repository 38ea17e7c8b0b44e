import ScriptCompiler.Proofs.IR.Simulation
import ScriptCompiler.Proofs.Optimize.Dominance

/-!
# Constants can be computed at once

Folding computes with constants as the machine does: integers wrap to words, and for floating-point
numbers this is asked of the machine (`Machine.Folds`).  A result that folding puts a constant under
has its value whenever it has one, because every number is defined once.  So a function runs like
itself with its constants folded (`Function.simulates_foldConstants`).
-/

namespace ScriptCompiler.Semantics

/-- The machine computes with floating-point constants as folding does. -/
structure Machine.Folds {Double : Type} (machine : Machine Double) : Prop where
  add : ∀ left right : Float,
    machine.add (machine.ofFloat left) (machine.ofFloat right) = machine.ofFloat (left + right)
  sub : ∀ left right : Float,
    machine.sub (machine.ofFloat left) (machine.ofFloat right) = machine.ofFloat (left - right)
  mul : ∀ left right : Float,
    machine.mul (machine.ofFloat left) (machine.ofFloat right) = machine.ofFloat (left * right)
  div : ∀ left right : Float,
    machine.div (machine.ofFloat left) (machine.ofFloat right) = machine.ofFloat (left / right)
  rem : ∀ left right : Float,
    machine.rem (machine.ofFloat left) (machine.ofFloat right) =
      machine.ofFloat (Binary64.remainder left right)
  neg : ∀ value : Float, machine.neg (machine.ofFloat value) = machine.ofFloat (-value)
  /-- Comparisons are ordered. -/
  eq : ∀ left right : Float, machine.eq (machine.ofFloat left) (machine.ofFloat right) =
    (!left.isNaN && !right.isNaN && left == right)
  ne : ∀ left right : Float, machine.ne (machine.ofFloat left) (machine.ofFloat right) =
    (!left.isNaN && !right.isNaN && left != right)
  lt : ∀ left right : Float, machine.lt (machine.ofFloat left) (machine.ofFloat right) =
    (!left.isNaN && !right.isNaN && decide (left < right))
  le : ∀ left right : Float, machine.le (machine.ofFloat left) (machine.ofFloat right) =
    (!left.isNaN && !right.isNaN && decide (left ≤ right))
  gt : ∀ left right : Float, machine.gt (machine.ofFloat left) (machine.ofFloat right) =
    (!left.isNaN && !right.isNaN && decide (right < left))
  ge : ∀ left right : Float, machine.ge (machine.ofFloat left) (machine.ofFloat right) =
    (!left.isNaN && !right.isNaN && decide (right ≤ left))

end ScriptCompiler.Semantics

namespace ScriptCompiler.IR

open Semantics

variable {Double : Type} {machine : Machine Double} {strings : List Bytes}

/-! ### Words -/

section Words

variable {left right : Int}

theorem ofInt_wrap32 (value : Int) : BitVec.ofInt 32 (wrap32 value) = BitVec.ofInt 32 value := by
  apply BitVec.eq_of_toInt_eq
  simp [wrap32, BitVec.toInt_ofInt]

theorem fits_wrap32 (value : Int) : (Constant.int (wrap32 value)).Fits := by
  have lower := Int.le_bmod (x := value) (m := 4294967296) (by decide)
  have upper := Int.bmod_lt (x := value) (m := 4294967296) (by decide)
  simp only [Constant.Fits, wrap32]
  omega

theorem toInt_ofInt_of_fits (fits : (Constant.int left).Fits) :
    (BitVec.ofInt 32 left).toInt = left := by
  obtain ⟨lower, upper⟩ := fits
  rw [BitVec.toInt_ofInt]
  exact Int.bmod_eq_of_le (by omega) (by omega)

variable (leftFits : (Constant.int left).Fits) (rightFits : (Constant.int right).Fits)
include leftFits rightFits

theorem ofInt_inj_of_fits : BitVec.ofInt 32 left = BitVec.ofInt 32 right ↔ left = right := by
  rw [← BitVec.toInt_inj, toInt_ofInt_of_fits leftFits, toInt_ofInt_of_fits rightFits]

theorem ofInt_beq : (BitVec.ofInt 32 left == BitVec.ofInt 32 right) = (left == right) := by
  rw [Bool.eq_iff_iff, beq_iff_eq, beq_iff_eq, ofInt_inj_of_fits leftFits rightFits]

theorem slt_ofInt : (BitVec.ofInt 32 left).slt (BitVec.ofInt 32 right) = decide (left < right) := by
  rw [BitVec.slt_eq_decide, toInt_ofInt_of_fits leftFits, toInt_ofInt_of_fits rightFits]

theorem sle_ofInt : (BitVec.ofInt 32 left).sle (BitVec.ofInt 32 right) = decide (left ≤ right) := by
  rw [BitVec.sle_eq_decide, toInt_ofInt_of_fits leftFits, toInt_ofInt_of_fits rightFits]

theorem faulty_ofInt : faulty (BitVec.ofInt 32 left) (BitVec.ofInt 32 right) =
    divisionTraps left right := by
  have zero : (0#32 : BitVec 32) = BitVec.ofInt 32 0 := rfl
  have least : BitVec.intMin 32 = BitVec.ofInt 32 (-2147483648) := by decide
  have minusOne : BitVec.allOnes 32 = BitVec.ofInt 32 (-1) := by decide
  rw [faulty, divisionTraps, zero, least, minusOne, ofInt_beq rightFits ⟨by decide, by decide⟩,
    ofInt_beq leftFits ⟨by decide, by decide⟩, ofInt_beq rightFits ⟨by decide, by decide⟩]

theorem ofInt_tdiv :
    BitVec.ofInt 32 (left.tdiv right) = (BitVec.ofInt 32 left).sdiv (BitVec.ofInt 32 right) := by
  apply BitVec.eq_of_toInt_eq
  rw [BitVec.toInt_sdiv, BitVec.toInt_ofInt, toInt_ofInt_of_fits leftFits,
    toInt_ofInt_of_fits rightFits]

theorem ofInt_tmod :
    BitVec.ofInt 32 (left.tmod right) = (BitVec.ofInt 32 left).srem (BitVec.ofInt 32 right) := by
  apply BitVec.eq_of_toInt_eq
  rw [BitVec.toInt_ofInt, ← toInt_ofInt_of_fits leftFits, ← toInt_ofInt_of_fits rightFits,
    ← BitVec.toInt_srem, BitVec.toInt_bmod_cancel]
  rw [toInt_ofInt_of_fits leftFits, toInt_ofInt_of_fits rightFits]

end Words

/-! ### Operations -/

section Operations

variable {content : Constant}

/-- A constant is what an operation comes to. -/
def Constant.IsComputed (machine : Machine Double) (content : Constant)
    (computed : Computed Double) :
    Prop :=
  ∃ datum, content.datum? machine = some datum ∧ computed = .value datum

theorem BinaryOpcode.onInts?_fits {opcode : BinaryOpcode} {left right : Int}
    (run : opcode.onInts? left right = some content) : content.Fits := by
  unfold onInts? at run
  split at run
  case h_1 | h_2 | h_3 =>
    cases run
    exact fits_wrap32 _
  case h_4 | h_5 =>
    split at run
    · cases run
    · cases run
      exact fits_wrap32 _
  all_goals
    cases run
    try trivial

theorem BinaryOpcode.onFloats?_fits {opcode : BinaryOpcode} {left right : Float}
    (run : opcode.onFloats? left right = some content) : content.Fits := by
  unfold onFloats? at run
  dsimp only at run
  split at run
  all_goals
    cases run
    try trivial

theorem BinaryOpcode.onConstants?_fits {opcode : BinaryOpcode} {left right : Constant}
    (run : opcode.onConstants? left right = some content) : content.Fits := by
  unfold onConstants? at run
  split at run
  · exact onInts?_fits run
  · exact onFloats?_fits run
  · unfold onBools? at run
    split at run
    all_goals
      cases run
      try trivial
  · cases run

theorem UnaryOpcode.onConstant?_fits {opcode : UnaryOpcode} {operand : Constant}
    (run : opcode.onConstant? operand = some content) : content.Fits := by
  unfold onConstant? at run
  split at run
  · cases run
    exact fits_wrap32 _
  · cases run
    trivial
  · cases run
    trivial
  · cases run

theorem BinaryOpcode.onInts?_isComputed {opcode : BinaryOpcode} {left right : Int}
    (leftFits : (Constant.int left).Fits) (rightFits : (Constant.int right).Fits)
    (run : opcode.onInts? left right = some content) :
    content.IsComputed machine (opcode.compute machine (.int (BitVec.ofInt 32 left))
      (.int (BitVec.ofInt 32 right))) := by
  have word : ∀ (value : Int) (result : BitVec 32), BitVec.ofInt 32 value = result →
      (Constant.int (wrap32 value)).IsComputed machine (.value (.int result)) :=
        fun value result same =>
    ⟨_, rfl, by rw [ofInt_wrap32, same]⟩
  have flag : ∀ value result : Bool, value = result →
      (Constant.bool value).IsComputed machine (.value (.bool result)) := fun value result same =>
    ⟨_, rfl, by rw [same]⟩
  have traps := faulty_ofInt leftFits rightFits
  cases opcode with
  | add =>
      cases run
      exact word _ _ (BitVec.ofInt_add left right)
  | sub =>
      cases run
      refine word _ _ ?_
      rw [Int.sub_eq_add_neg, BitVec.ofInt_add, BitVec.ofInt_neg, BitVec.sub_eq_add_neg]
  | mul =>
      cases run
      exact word _ _ (BitVec.ofInt_mul left right)
  | div =>
      simp only [onInts?] at run
      split at run
      · cases run
      · rename_i fine
        cases run
        simp only [compute, traps, fine]
        exact word _ _ (ofInt_tdiv leftFits rightFits)
  | mod =>
      simp only [onInts?] at run
      split at run
      · cases run
      · rename_i fine
        cases run
        simp only [compute, traps, fine]
        exact word _ _ (ofInt_tmod leftFits rightFits)
  | eq =>
      cases run
      exact flag _ _ (ofInt_beq leftFits rightFits).symm
  | ne =>
      cases run
      exact flag _ _ (by rw [bne, bne, ofInt_beq leftFits rightFits])
  | lt =>
      cases run
      exact flag _ _ (slt_ofInt leftFits rightFits).symm
  | le =>
      cases run
      exact flag _ _ (sle_ofInt leftFits rightFits).symm
  | gt =>
      cases run
      exact flag _ _ (slt_ofInt rightFits leftFits).symm
  | ge =>
      cases run
      exact flag _ _ (sle_ofInt rightFits leftFits).symm
  | fadd | fsub | fmul | fdiv | fmod | feq | fne | flt | fle | fgt | fge | unlisted => cases run

theorem BinaryOpcode.onFloats?_isComputed (folds : machine.Folds) {opcode : BinaryOpcode}
    {left right : Float} (run : opcode.onFloats? left right = some content) :
    content.IsComputed machine (opcode.compute machine (.float (machine.ofFloat left))
      (.float (machine.ofFloat right))) := by
  have number : ∀ (value : Float) (result : Double), result = machine.ofFloat value →
      (Constant.float value).IsComputed machine (.value (.float result)) := fun value result same =>
    ⟨_, rfl, by rw [same]⟩
  have flag : ∀ value result : Bool, result = value →
      (Constant.bool value).IsComputed machine (.value (.bool result)) := fun value result same =>
    ⟨_, rfl, by rw [same]⟩
  cases opcode with
  | fadd =>
      cases run
      exact number _ _ (folds.add left right)
  | fsub =>
      cases run
      exact number _ _ (folds.sub left right)
  | fmul =>
      cases run
      exact number _ _ (folds.mul left right)
  | fdiv =>
      cases run
      exact number _ _ (folds.div left right)
  | fmod =>
      cases run
      exact number _ _ (folds.rem left right)
  | feq =>
      cases run
      exact flag _ _ (folds.eq left right)
  | fne =>
      cases run
      exact flag _ _ (folds.ne left right)
  | flt =>
      cases run
      exact flag _ _ (folds.lt left right)
  | fle =>
      cases run
      exact flag _ _ (folds.le left right)
  | fgt =>
      cases run
      exact flag _ _ (folds.gt left right)
  | fge =>
      cases run
      exact flag _ _ (folds.ge left right)
  | add | sub | mul | div | mod | eq | ne | lt | le | gt | ge | unlisted => cases run

/-- **Operations on constants compute what the machine computes.** -/
theorem BinaryOpcode.onConstants?_isComputed (folds : machine.Folds) {opcode : BinaryOpcode}
    {left right : Constant} (leftFits : left.Fits) (rightFits : right.Fits)
    (run : opcode.onConstants? left right = some content) :
    ∃ first second, left.datum? machine = some first ∧ right.datum? machine = some second ∧
      content.IsComputed machine (opcode.compute machine first second) := by
  unfold onConstants? at run
  split at run
  · exact ⟨_, _, rfl, rfl, onInts?_isComputed leftFits rightFits run⟩
  · exact ⟨_, _, rfl, rfl, onFloats?_isComputed folds run⟩
  · refine ⟨_, _, rfl, rfl, ?_⟩
    unfold onBools? at run
    split at run <;> cases run <;> exact ⟨_, rfl, rfl⟩
  · cases run

theorem UnaryOpcode.onConstant?_isComputed (folds : machine.Folds) {opcode : UnaryOpcode}
    {operand : Constant} (run : opcode.onConstant? operand = some content) :
    ∃ value, operand.datum? machine = some value ∧
      content.IsComputed machine (opcode.compute machine value) := by
  unfold onConstant? at run
  split at run
  · cases run
    refine ⟨_, rfl, _, rfl, ?_⟩
    rw [ofInt_wrap32, BitVec.ofInt_neg]
    rfl
  · rename_i value
    cases run
    refine ⟨_, rfl, _, rfl, ?_⟩
    rw [← folds.neg value]
    rfl
  · cases run
    exact ⟨_, rfl, _, rfl, rfl⟩
  · cases run

end Operations

/-! ### Operands in range -/

/-- A constant fits, and a string constant is there. -/
def Value.InRange (texts : Nat) : Value → Prop
  | .constant content => content.Fits
  | .string index => index < texts
  | .stray _ => False
  | .param _ | .slot _ | .temp _ => True

/-- Every operand of an instruction is in range. -/
def Instr.InRange (texts : Nat) (instr : Instr) : Prop :=
  ∀ value ∈ instr.operands, value.InRange texts

/-- What is known at an instruction: constants that fit and that are copied somewhere in the
code. -/
def Known.Copied (code : List Instr) (known : Known) : Prop :=
  ∀ entry ∈ known, entry.2.Fits ∧ ∃ dest : Temp, dest.id = entry.1 ∧
    .copy dest (.constant entry.2) ∈ code

/-- Folding makes one instruction of another, by what is copied in some code. -/
def Instr.FoldsIn (code : List Instr) (instr folded : Instr) : Prop :=
  ∃ known dropped, instr.FoldsTo known folded dropped ∧ known.Copied code

section Range

variable {texts : Nat} {known : Known} {code : List Instr} {instr folded : Instr}

theorem Known.Copied.replaced_inRange (copied : known.Copied code) {value : Value}
    (inRange : value.InRange texts) : (value.replaced known).InRange texts := by
  unfold Value.replaced
  split
  · rename_i content found
    cases value with
    | temp result => exact (copied _ (mem_of_lookup found)).1
    | constant | param | slot | string | stray => cases found
  · exact inRange

theorem Instr.computed?_fits {dest : Temp} {content : Constant}
    (result : instr.computed? = some (dest, content)) : content.Fits := by
  unfold computed? at result
  split at result
  · obtain ⟨_, run, same⟩ := Option.map_eq_some_iff.mp result
    cases same
    exact BinaryOpcode.onConstants?_fits run
  · obtain ⟨_, run, same⟩ := Option.map_eq_some_iff.mp result
    cases same
    exact UnaryOpcode.onConstant?_fits run
  · cases result

/-- Folding keeps operands in range. -/
theorem Instr.FoldsIn.inRange (folds : instr.FoldsIn code folded) (inRange : instr.InRange texts) :
    folded.InRange texts := by
  obtain ⟨known, dropped, folds, copied⟩ := folds
  cases folds with
  | computed result =>
      intro value read
      obtain rfl := List.mem_singleton.mp read
      exact Instr.computed?_fits result
  | decided choice => exact fun value read => nomatch read
  | kept =>
      intro value read
      obtain ⟨original, given, rfl | rfl⟩ := Instr.mem_operands_substituted read
      · exact inRange value given
      · exact copied.replaced_inRange (inRange original given)

end Range

/-! ### Folding through the code -/

namespace Folding

variable {texts : Nat} {code : List Instr}

theorem onInstr_foldsIn {state : Folding} {instr : Instr} (copied : state.known.Copied code)
    (inRange : instr.InRange texts) (within : (state.onInstr instr).2.1 ∈ code) :
    instr.FoldsIn code (state.onInstr instr).2.1 ∧ (state.onInstr instr).1.known.Copied code := by
  have folds : instr.FoldsIn code (state.onInstr instr).2.1 :=
    ⟨state.known, _, onInstr_foldsTo state instr, copied⟩
  refine ⟨folds, ?_⟩
  rcases onInstr_known state instr with same | ⟨dest, content, isCopy, same⟩
  · rwa [same]
  · rw [same]
    have range := folds.inRange inRange
    rw [isCopy] at range within
    exact List.forall_mem_cons.mpr ⟨⟨range _ List.mem_cons_self, dest, rfl, within⟩, copied⟩

theorem onInstrs_foldsIn {state : Folding} {instrs : List Instr} (copied : state.known.Copied code)
    (inRange : ∀ instr ∈ instrs, instr.InRange texts)
    (within : (state.onInstrs instrs).2.1 ⊆ code) :
    List.Forall₂ (Instr.FoldsIn code) instrs (state.onInstrs instrs).2.1 ∧
      (state.onInstrs instrs).1.known.Copied code := by
  induction instrs generalizing state with
  | nil => exact ⟨.nil, copied⟩
  | cons instr rest ih =>
      rw [List.forall_mem_cons] at inRange
      obtain ⟨folds, next⟩ := onInstr_foldsIn copied inRange.1 (within List.mem_cons_self)
      obtain ⟨others, last⟩ := ih next inRange.2 fun folded member =>
        within (List.mem_cons_of_mem _ member)
      exact ⟨.cons folds others, last⟩

theorem onBlocks_foldsIn {state : Folding} {blocks : List Block} (copied : state.known.Copied code)
    (inRange : ∀ block ∈ blocks, ∀ instr ∈ block.instrs, instr.InRange texts)
    (within : (state.onBlocks blocks).2.1.flatMap Block.instrs ⊆ code) :
    List.Forall₂ (fun block folded : Block => folded.name = block.name ∧
      List.Forall₂ (Instr.FoldsIn code) block.instrs folded.instrs) blocks
      (state.onBlocks blocks).2.1 := by
  induction blocks generalizing state with
  | nil => exact .nil
  | cons block rest ih =>
      rw [List.forall_mem_cons] at inRange
      simp only [onBlocks, List.flatMap_cons] at within
      obtain ⟨folds, next⟩ := onInstrs_foldsIn copied inRange.1 fun folded member =>
        within (List.mem_append_left _ member)
      exact .cons ⟨rfl, folds⟩ (ih next inRange.2 fun folded member =>
        within (List.mem_append_right _ member))

end Folding

namespace Function

variable {function : Function} {texts : Nat}

/-- Every operand in a function is in range. -/
def InRange (texts : Nat) (function : Function) : Prop :=
  ∀ instr ∈ function.instrs, instr.InRange texts

theorem InRange.folded (inRange : function.InRange texts) :
    List.Forall₂ (fun block folded : Block => folded.name = block.name ∧
      List.Forall₂ (Instr.FoldsIn function.foldConstants.1.instrs) block.instrs folded.instrs)
      function.blocks (Folding.onBlocks {} function.blocks).2.1 := by
  have same : function.foldConstants.1.instrs =
      ((Folding.onBlocks {} function.blocks).2.1).flatMap Block.instrs :=
    instrs_removeEdges _ { function with blocks := (Folding.onBlocks {} function.blocks).2.1 }
  refine Folding.onBlocks_foldsIn (fun entry member => nomatch member)
    (fun block member instr within => inRange instr (List.mem_flatMap.mpr ⟨block, member, within⟩))
      ?_
  rw [same]
  exact List.Subset.refl _

/-- The code of a block is folded by what is copied in the folded function. -/
theorem InRange.code_foldConstants (inRange : function.InRange texts) (block : Nat) :
    List.Forall₂ (Instr.FoldsIn function.foldConstants.1.instrs) (function.code block)
      (function.foldConstants.1.code block) := by
  have same : function.foldConstants.1.code block =
      code { function with blocks := (Folding.onBlocks {} function.blocks).2.1 } block :=
    code_removeEdges _ _
  have each : Option.Rel (fun source folded : Block => folded.name = source.name ∧
      List.Forall₂ (Instr.FoldsIn function.foldConstants.1.instrs) source.instrs folded.instrs)
      (function.block? block)
      (block? { function with blocks := (Folding.onBlocks {} function.blocks).2.1 } block) :=
    block?_forall₂ inRange.folded fun _ _ folds => folds.1
  rw [same]
  unfold code
  generalize function.block? block = found at each
  generalize block? _ block = partner at each
  cases each with
  | none => exact .nil
  | some folds => exact folds.2

end Function

/-! ### Frames -/

/-- What a frame holds under a number that a constant is copied to is the constant. -/
def Frame.Knows (machine : Machine Double) (code : List Instr) (frame : Frame Double) : Prop :=
  ∀ dest content, .copy dest (.constant content) ∈ code → ∀ datum,
    frame.temps dest.id = some datum → content.datum? machine = some datum

/-- The same frame, which knows the constants of some code. -/
def Frame.Knowing (machine : Machine Double) (code : List Instr) (frame other : Frame Double) :
    Prop :=
  other = frame ∧ frame.Knows machine code

/-- Where keys are different, a member is known by its key. -/
theorem eq_of_nodup_filterMap {α β : Type} {key : α → Option β} {items : List α}
    (once : (items.filterMap key).Nodup) {first second : α} (firstMem : first ∈ items)
    (secondMem : second ∈ items) {value : β} (firstKey : key first = some value)
    (secondKey : key second = some value) : first = second := by
  induction items with
  | nil => cases firstMem
  | cons item rest ih =>
      have later : ∀ other ∈ rest, key other = some value → key item ≠ some value := by
        intro other member isKey here
        rw [List.filterMap_cons_some here, List.nodup_cons] at once
        exact once.1 (List.mem_filterMap.mpr ⟨other, member, isKey⟩)
      rcases List.mem_cons.mp firstMem with rfl | firstLater
      · rcases List.mem_cons.mp secondMem with rfl | secondLater
        · rfl
        · exact absurd firstKey (later second secondLater secondKey)
      · rcases List.mem_cons.mp secondMem with rfl | secondLater
        · exact absurd secondKey (later first firstLater firstKey)
        · exact ih (once.sublist ((List.sublist_cons_self item rest).filterMap _)) firstLater
            secondLater

section Frames

variable {code : List Instr} {frame : Frame Double} {known : Known} {instr folded : Instr}

/-- A result that is no copied constant, or the constant itself, leaves a frame that knows. -/
theorem Frame.Knows.define (knows : frame.Knows machine code)
    (once : ((code.filterMap Instr.result?).filterMap Value.id?).Nodup) (member : folded ∈ code)
    {dest : Temp} (isResult : folded.result? = some (.temp dest)) {datum : Datum Double}
    (agrees : ∀ content, folded = .copy dest (.constant content) → content.datum? machine =
      some datum) :
    (frame.define dest datum).Knows machine code := by
  intro other content copied found there
  by_cases same : other.id = dest.id
  · rw [List.filterMap_filterMap] at once
    have equal := eq_of_nodup_filterMap once member copied
      (by rw [isResult]; rfl) (by rw [Instr.result?, Option.bind_some, Value.id?, same])
    subst equal
    cases isResult
    simp only [Frame.define, Function.update_self, Option.some.injEq] at there
    exact there ▸ agrees content rfl
  · simp only [Frame.define, Function.update_of_ne same] at there
    exact knows other content copied found there

/-- A constant in the place of an operand has its value. -/
theorem Frame.Knows.replaced (knows : frame.Knows machine code) (copied : known.Copied code)
    {value : Value} {datum : Datum Double}
    (found : value.datum? machine strings frame = some datum) :
    (value.replaced known).datum? machine strings frame = some datum := by
  unfold Value.replaced
  split
  · rename_i content isKnown
    cases value with
    | temp result =>
        obtain ⟨-, dest, same, isCopy⟩ := copied _ (mem_of_lookup isKnown)
        exact knows dest content isCopy datum (same ▸ found)
    | constant | param | slot | string | stray => cases isKnown
  · exact found

theorem Frame.Knows.replaced_data (knows : frame.Knows machine code) (copied : known.Copied code)
    {values : List Value} {data : List (Datum Double)}
    (found : values.mapM (Value.datum? machine strings frame) = some data) :
    (values.map (Value.replaced known)).mapM (Value.datum? machine strings frame) = some data := by
  induction values generalizing data with
  | nil => exact found
  | cons value rest ih =>
      rw [List.mapM_cons] at found
      cases first : value.datum? machine strings frame with
      | none => simp [first] at found
      | some datum =>
          cases others : rest.mapM (Value.datum? machine strings frame) with
          | none => simp [first, others] at found
          | some later =>
              obtain rfl : datum :: later = data := by simpa [first, others] using found
              rw [List.map_cons, List.mapM_cons, knows.replaced copied first, ih others]
              rfl

section Steps

variable (knows : frame.Knows machine code)
  (once : ((code.filterMap Instr.result?).filterMap Value.id?).Nodup) (member : folded ∈ code)
include knows once member

theorem Frame.Knows.receive {dest : Option Temp}
    (isResult : ∀ temp ∈ dest, folded.result? = some (.temp temp))
    (noCopy : ∀ temp content, folded ≠ .copy temp (.constant content))
    (value : Option (Datum Double))
    (next : Frame Double) (received : frame.receive dest value = some next) :
    ∃ next', frame.receive dest value = some next' ∧ Frame.Knowing machine code next next' := by
  refine ⟨next, received, rfl, ?_⟩
  cases dest with
  | none =>
      cases received
      exact knows
  | some temp =>
      cases value with
      | none => cases received
      | some datum =>
          cases received
          exact knows.define once member (isResult temp rfl) fun content isCopy =>
            absurd isCopy (noCopy temp content)

theorem Frame.Knows.ofComputed {dest : Temp} (isResult : folded.result? = some (.temp dest))
    (noCopy : ∀ content, folded ≠ .copy dest (.constant content)) (computed : Computed Double) :
    Action.Upto (Frame.Knowing machine code) frame frame (.ofComputed frame dest computed)
      (.ofComputed frame dest computed) := by
  cases computed with
  | value result =>
      exact .proceed ⟨rfl, knows.define once member isResult fun content isCopy =>
        absurd isCopy (noCopy content)⟩
  | trap => exact .trap _
  | stuck => exact .stuck _

/-- With known constants in place an instruction asks for the same. -/
theorem Frame.Knows.substituted (copied : known.Copied code)
    (same : folded = instr.substituted known) :
    Action.Upto (Frame.Knowing machine code) frame frame (instr.action machine strings frame)
      (folded.action machine strings frame) := by
  subst same
  cases instr with
  | binary opcode dest left right =>
      simp only [Instr.action, Instr.substituted]
      split
      · rename_i first second isFirst isSecond
        rw [knows.replaced copied isFirst, knows.replaced copied isSecond]
        exact knows.ofComputed once member rfl (by simp [Instr.substituted]) _
      · exact .stuck _
  | unary opcode dest operand =>
      simp only [Instr.action, Instr.substituted]
      split
      · rename_i value isValue
        rw [knows.replaced copied isValue]
        exact knows.ofComputed once member rfl (by simp [Instr.substituted]) _
      · exact .stuck _
  | copy dest value =>
      simp only [Instr.action, Instr.substituted]
      split
      · rename_i datum isDatum
        have found := knows.replaced copied isDatum
        rw [found]
        refine .proceed ⟨rfl, knows.define once member rfl fun content isCopy => ?_⟩
        rw [Instr.substituted, Instr.copy.injEq] at isCopy
        rw [isCopy.2] at found
        exact found
      · exact .stuck _
  | alloca place => exact .proceed ⟨rfl, knows⟩
  | load dest address =>
      cases address with
      | slot place =>
          simp only [Instr.action, Instr.substituted]
          split
          · exact .proceed ⟨rfl, knows.define once member rfl (by simp [Instr.substituted])⟩
          · exact .stuck _
      | constant | param | temp | string | stray => exact .stuck _
  | store address content =>
      cases address with
      | slot place =>
          simp only [Instr.action, Instr.substituted]
          split
          · rename_i datum there isDatum
            rw [there, knows.replaced copied isDatum]
            exact .proceed ⟨rfl, knows⟩
          · exact .stuck _
      | constant | param | temp | string | stray => exact .stuck _
  | call dest callee arguments =>
      have result : ∀ temp ∈ dest, (Instr.substituted known (.call dest callee arguments)).result? =
          some (.temp temp) := by
        rintro temp rfl
        rfl
      have receives := knows.receive once member result (by simp [Instr.substituted])
      simp only [Instr.action, Instr.substituted]
      split
      · rename_i data isData linkage
        rw [knows.replaced_data copied isData, linkage]
        exact .invoke receives
      · rename_i data isData linkage
        rw [knows.replaced_data copied isData, linkage]
        unfold externalAction
        split
        · split
          · exact .print receives
          · exact .stuck _
        · exact .stuck _
      · exact .stuck _
  | jump target => exact .goto ⟨rfl, knows⟩
  | branch condition ifTrue ifFalse =>
      simp only [Instr.action, Instr.substituted]
      split
      · rename_i isTrue
        rw [knows.replaced copied isTrue]
        exact .goto ⟨rfl, knows⟩
      · rename_i isFalse
        rw [knows.replaced copied isFalse]
        exact .goto ⟨rfl, knows⟩
      · exact .stuck _
  | ret value =>
      cases value with
      | none => exact .leave
      | some value =>
          simp only [Instr.action, Instr.substituted, Option.map_some]
          split
          · rename_i datum isDatum
            rw [knows.replaced copied isDatum]
            exact .leave
          · exact .stuck _

/-- An operation on constants asks for the constant that it computes. -/
theorem Frame.Knows.computed (folds : machine.Folds) (copied : known.Copied code) {texts : Nat}
    (inRange : instr.InRange texts) {dest : Temp} {content : Constant}
    (result : (instr.substituted known).computed? = some (dest, content))
    (same : folded = .copy dest (.constant content)) :
    Action.Upto (Frame.Knowing machine code) frame frame (instr.action machine strings frame)
      (folded.action machine strings frame) := by
  subst same
  -- Whatever the operation is, it comes to the constant.
  have finish : ∀ computed : Computed Double, content.IsComputed machine computed →
      Action.Upto (Frame.Knowing machine code) frame frame (.ofComputed frame dest computed)
        (Instr.action machine strings frame (.copy dest (.constant content))) := by
    rintro _ ⟨datum, isDatum, rfl⟩
    simp only [Instr.action, Value.datum?, isDatum]
    refine .proceed ⟨rfl, knows.define once member rfl fun other isCopy => ?_⟩
    cases isCopy
    exact isDatum
  cases instr with
  | binary opcode target left right =>
      simp only [Instr.substituted, Instr.computed?] at result
      split at result
      · rename_i isBinary
        obtain ⟨rfl, rfl, isLeft, isRight⟩ := Instr.binary.inj isBinary
        obtain ⟨_, run, same⟩ := Option.map_eq_some_iff.mp result
        cases same
        have leftFits := copied.replaced_inRange (inRange left (by simp [Instr.operands]))
        have rightFits := copied.replaced_inRange (inRange right (by simp [Instr.operands]))
        rw [isLeft] at leftFits
        rw [isRight] at rightFits
        obtain ⟨first, second, firstDatum, secondDatum, isComputed⟩ :=
          BinaryOpcode.onConstants?_isComputed folds leftFits rightFits run
        simp only [Instr.action]
        split
        · rename_i first' second' isFirst isSecond
          have leftFound := knows.replaced copied isFirst
          have rightFound := knows.replaced copied isSecond
          rw [isLeft, Value.datum?, firstDatum] at leftFound
          rw [isRight, Value.datum?, secondDatum] at rightFound
          cases leftFound
          cases rightFound
          exact finish _ isComputed
        · exact .stuck _
      · rename_i isBinary
        cases isBinary
      · cases result
  | unary opcode target operand =>
      simp only [Instr.substituted, Instr.computed?] at result
      split at result
      · rename_i isUnary
        cases isUnary
      · rename_i isUnary
        obtain ⟨rfl, rfl, isOperand⟩ := Instr.unary.inj isUnary
        obtain ⟨_, run, same⟩ := Option.map_eq_some_iff.mp result
        cases same
        obtain ⟨value, isDatum, isComputed⟩ := UnaryOpcode.onConstant?_isComputed folds run
        simp only [Instr.action]
        split
        · rename_i value' isValue
          have found := knows.replaced copied isValue
          rw [isOperand, Value.datum?, isDatum] at found
          cases found
          exact finish _ isComputed
        · exact .stuck _
      · cases result
  | copy | alloca | load | store | call | jump | branch | ret => cases result

omit once member in
/-- A branch on a constant goes where the constant says. -/
theorem Frame.Knows.decided (copied : known.Copied code) {taken dropped : BlockName}
    (choice : (instr.substituted known).decided? = some (taken, dropped)) :
    Action.Upto (Frame.Knowing machine code) frame frame (instr.action machine strings frame)
      (Instr.action machine strings frame (.jump taken)) := by
  obtain ⟨condition, ifTrue, ifFalse, value, rfl, isKnown, rfl, -⟩ := Instr.decided_branch choice
  simp only [Instr.action]
  split
  · rename_i isTrue
    have found := knows.replaced copied isTrue
    rw [isKnown] at found
    cases found
    exact .goto ⟨rfl, knows⟩
  · rename_i isFalse
    have found := knows.replaced copied isFalse
    rw [isKnown] at found
    cases found
    exact .goto ⟨rfl, knows⟩
  · exact .stuck _

/-- **What folding makes of an instruction asks for the same.** -/
theorem Frame.Knows.action_upto (folds : machine.Folds) {texts : Nat}
    (inRange : instr.InRange texts) (folding : instr.FoldsIn code folded) :
    Action.Upto (Frame.Knowing machine code) frame frame (instr.action machine strings frame)
      (folded.action machine strings frame) := by
  obtain ⟨known, dropped, folding, copied⟩ := folding
  cases folding with
  | computed result => exact knows.computed once member folds copied inRange result rfl
  | decided choice => exact knows.decided copied choice
  | kept => exact knows.substituted once member copied rfl

end Steps

end Frames

/-- **A function runs like itself with its constants folded.** -/
theorem Function.simulates_foldConstants {function : Function} {texts : Nat} (folds : machine.Folds)
    (grounded : function.Grounded) (inRange : function.InRange texts) :
    function.Simulates machine strings function.foldConstants.1 := by
  intro call call' calls bound arguments trace
  have once := (List.nodup_append.mp grounded.foldConstants.defined_once).2.1
  refine enter_upto (Frame.Knowing machine function.foldConstants.1.instrs) (fun _ => True)
    (fun _ _ _ _ => trivial) (fun block _ goto goto' gotos => ?_) bound trivial _ _ trace
    ⟨rfl, fun _ _ _ _ there => nomatch there⟩
  have folded := inRange.code_foldConstants block
  have within : ∀ instr ∈ function.code block, instr.InRange texts := fun instr member =>
    inRange instr (mem_instrs_of_code member)
  have within' : ∀ instr ∈ function.foldConstants.1.code block,
      instr ∈ function.foldConstants.1.instrs := fun instr => mem_instrs_of_code
  rw [targetsOf] at gotos
  generalize function.code block = code at folded within gotos
  generalize function.foldConstants.1.code block = code' at folded within'
  induction folded with
  | nil => exact .nil _
  | cons first _ ih =>
      rw [← List.singleton_append, targetIds_append] at gotos
      rw [List.forall_mem_cons] at within within'
      refine .cons calls (fun target jumps => gotos target (List.mem_append_left _ jumps)) ?_
        (ih within.2 (fun target jumps => gotos target (List.mem_append_right _ jumps)) within'.2)
      rintro frame other ⟨rfl, knows⟩
      exact knows.action_upto once within'.1 folds within.1 first

end ScriptCompiler.IR
