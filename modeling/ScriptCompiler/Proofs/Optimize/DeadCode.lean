import ScriptCompiler.Proofs.IR.Simulation
import ScriptCompiler.Proofs.Optimize.Dominance

/-!
# Dead code can be left out

Deletions change frames only where no instruction that is left reads: in results that nothing reads,
in slots that nothing refers to and in the content of slots that nothing loads.  So a function runs
like itself without its dead code (`Function.Orderly.simulates_eliminateDeadCode`).  Only a trap may
get lost, with the division that traps.
-/

namespace ScriptCompiler.IR

open Semantics

variable {Double : Type} {machine : Machine Double} {strings : List Bytes} {left : List Instr}
  {frame other : Frame Double}

theorem mapM_congr_mem {α β : Type} {items : List α} {step step' : α → Option β}
    (same : ∀ item ∈ items, step item = step' item) : items.mapM step = items.mapM step' := by
  induction items with
  | nil => rfl
  | cons item rest ih =>
      rw [List.forall_mem_cons] at same
      rw [List.mapM_cons, List.mapM_cons, same.1, ih same.2]

/-! ### Frames -/

/-- Two frames agree on everything that some instructions read. -/
structure Frame.Agree (left : List Instr) (frame other : Frame Double) : Prop where
  /-- The arguments are the same. -/
  arguments : other.arguments = frame.arguments
  /-- Results that are read are the same. -/
  temps : ∀ use ∈ left, ∀ temp, .temp temp ∈ use.operands →
    other.temps temp.id = frame.temps temp.id
  /-- Slots that are referred to are there or not. -/
  slots : ∀ use ∈ left, ∀ place, .slot place ∈ use.operands →
    (other.slots place.id).isSome = (frame.slots place.id).isSome
  /-- Slots that are loaded are the same. -/
  contents : ∀ dest place, .load dest (.slot place) ∈ left → other.slots place.id =
    frame.slots place.id

/-- An instruction only does what other instructions do not read. -/
def Instr.Idle (left : List Instr) : Instr → Prop
  | .binary _ dest _ _ | .unary _ dest _ | .copy dest _ | .load dest _ =>
      ∀ use ∈ left, ∀ temp, .temp temp ∈ use.operands → temp.id ≠ dest.id
  | .alloca place => ∀ use ∈ left, ∀ slot, .slot slot ∈ use.operands → slot.id ≠ place.id
  | .store address _ => ∀ place, address = .slot place →
      ∀ dest slot, .load dest (.slot slot) ∈ left → slot.id ≠ place.id
  | .call .. | .jump _ | .branch .. | .ret _ => False

namespace Frame.Agree

theorem refl (left : List Instr) (frame : Frame Double) : Agree left frame frame :=
  ⟨rfl, fun _ _ _ _ => rfl, fun _ _ _ _ => rfl, fun _ _ _ => rfl⟩

variable (agree : Agree left frame other)
include agree

theorem datum? {use : Instr} (member : use ∈ left) {value : Value} (read : value ∈ use.operands) :
    value.datum? machine strings other = value.datum? machine strings frame := by
  cases value with
  | constant | slot | string | stray => rfl
  | param place => rw [Value.datum?, Value.datum?, agree.arguments]
  | temp result => exact agree.temps use member result read

theorem define (temp : Temp) (datum : Datum Double) :
    Agree left (frame.define temp datum) (other.define temp datum) where
  arguments := agree.arguments
  temps := by
    intro use member other read
    by_cases same : other.id = temp.id
    · simp [Frame.define, same]
    · simpa [Frame.define, Function.update_of_ne same] using agree.temps use member other read
  slots := agree.slots
  contents := agree.contents

theorem make (place : Place) : Agree left (frame.make place) (other.make place) where
  arguments := agree.arguments
  temps := agree.temps
  slots := by
    intro use member slot read
    by_cases same : slot.id = place.id
    · simp [Frame.make, same]
    · simpa [Frame.make, Function.update_of_ne same] using agree.slots use member slot read
  contents := by
    intro dest slot member
    by_cases same : slot.id = place.id
    · simp [Frame.make, same, same ▸ agree.contents dest slot member]
    · simpa [Frame.make, Function.update_of_ne same] using agree.contents dest slot member

theorem fill (place : Place) (datum : Datum Double) :
    Agree left (frame.fill place datum) (other.fill place datum) where
  arguments := agree.arguments
  temps := agree.temps
  slots := by
    intro use member slot read
    by_cases same : slot.id = place.id
    · simp [Frame.fill, same]
    · simpa [Frame.fill, Function.update_of_ne same] using agree.slots use member slot read
  contents := by
    intro dest slot member
    by_cases same : slot.id = place.id
    · simp [Frame.fill, same]
    · simpa [Frame.fill, Function.update_of_ne same] using agree.contents dest slot member

theorem receive {dest : Option Temp} {value : Option (Datum Double)} {next : Frame Double}
    (received : frame.receive dest value = some next) :
    ∃ next', other.receive dest value = some next' ∧ Agree left next next' := by
  cases dest with
  | none =>
      cases received
      exact ⟨other, rfl, agree⟩
  | some temp =>
      cases value with
      | none => cases received
      | some datum =>
          cases received
          exact ⟨_, rfl, agree.define temp datum⟩

/-- A result that is not read makes no difference. -/
theorem define_left {temp : Temp}
    (unread : ∀ use ∈ left, ∀ read, .temp read ∈ use.operands → read.id ≠ temp.id)
    (datum : Datum Double) : Agree left (frame.define temp datum) other where
  arguments := agree.arguments
  temps := by
    intro use member read isRead
    simpa [Frame.define, Function.update_of_ne (unread use member read isRead)] using
      agree.temps use member read isRead
  slots := agree.slots
  contents := agree.contents

/-- A slot that is not referred to makes no difference. -/
theorem make_left {place : Place}
    (unread : ∀ use ∈ left, ∀ slot, .slot slot ∈ use.operands → slot.id ≠ place.id) :
    Agree left (frame.make place) other where
  arguments := agree.arguments
  temps := agree.temps
  slots := by
    intro use member slot read
    simpa [Frame.make, Function.update_of_ne (unread use member slot read)] using
      agree.slots use member slot read
  contents := by
    intro dest slot member
    have differ := unread _ member slot List.mem_cons_self
    simpa [Frame.make, Function.update_of_ne differ] using agree.contents dest slot member

/-- The content of a slot that is not loaded makes no difference. -/
theorem fill_left {place : Place} (there : (frame.slots place.id).isSome)
    (unread : ∀ dest slot, .load dest (.slot slot) ∈ left → slot.id ≠ place.id)
    (datum : Datum Double) :
    Agree left (frame.fill place datum) other where
  arguments := agree.arguments
  temps := agree.temps
  slots := by
    intro use member slot read
    have before := agree.slots use member slot read
    by_cases same : slot.id = place.id
    · rw [same] at before ⊢
      simpa [Frame.fill] using before.trans there
    · simpa [Frame.fill, Function.update_of_ne same] using before
  contents := by
    intro dest slot member
    have differ := unread dest slot member
    simpa [Frame.fill, Function.update_of_ne differ] using agree.contents dest slot member

theorem ofComputed (temp : Temp) (computed : Computed Double) :
    Action.Upto (Agree left) frame other (.ofComputed frame temp computed)
      (.ofComputed other temp computed) := by
  cases computed with
  | value result => exact .proceed (agree.define temp result)
  | trap => exact .trap _
  | stuck => exact .stuck _

/-- An instruction that is left asks for the same in frames that agree. -/
theorem action_upto {instr : Instr} (member : instr ∈ left) :
    Action.Upto (Agree left) frame other (instr.action machine strings frame)
      (instr.action machine strings other) := by
  have same : ∀ value ∈ instr.operands,
      value.datum? machine strings other = value.datum? machine strings frame :=
    fun value read => agree.datum? member read
  cases instr with
  | binary opcode dest leftOperand rightOperand =>
      simp only [Instr.action, same leftOperand (by simp [Instr.operands]),
        same rightOperand (by simp [Instr.operands])]
      split
      · exact agree.ofComputed dest _
      · exact .stuck _
  | unary opcode dest operand =>
      simp only [Instr.action, same operand (by simp [Instr.operands])]
      split
      · exact agree.ofComputed dest _
      · exact .stuck _
  | copy dest value =>
      simp only [Instr.action, same value (by simp [Instr.operands])]
      split
      · exact .proceed (agree.define dest _)
      · exact .stuck _
  | alloca place => exact .proceed (agree.make place)
  | load dest address =>
      cases address with
      | slot place =>
          simp only [Instr.action, Frame.content?, agree.contents dest place member]
          split
          · exact .proceed (agree.define dest _)
          · exact .stuck _
      | constant | param | temp | string | stray => exact .stuck _
  | store address content =>
      cases address with
      | slot place =>
          have there := agree.slots _ member place (by simp [Instr.operands])
          simp only [Instr.action, same content (by simp [Instr.operands])]
          cases held : frame.slots place.id with
          | none => exact .stuck _
          | some old =>
              rw [held] at there
              obtain ⟨old', held'⟩ := Option.isSome_iff_exists.mp there
              rw [held']
              cases content.datum? machine strings frame with
              | none => exact .stuck _
              | some datum => exact .proceed (agree.fill place datum)
      | constant | param | temp | string | stray => exact .stuck _
  | call dest callee arguments =>
      have data : arguments.mapM (Value.datum? machine strings other) =
          arguments.mapM (Value.datum? machine strings frame) := mapM_congr_mem same
      simp only [Instr.action, data]
      split
      · exact .invoke fun value next received => agree.receive received
      · unfold externalAction
        split
        · split
          · exact .print fun value next received => agree.receive received
          · exact .stuck _
        · exact .stuck _
      · exact .stuck _
  | jump target => exact .goto agree
  | branch condition ifTrue ifFalse =>
      simp only [Instr.action, same condition (by simp [Instr.operands])]
      split
      · exact .goto agree
      · exact .goto agree
      · exact .stuck _
  | ret value =>
      cases value with
      | none => exact .leave
      | some value =>
          simp only [Instr.action, same value (by simp [Instr.operands])]
          split
          · exact .leave
          · exact .stuck _

/-- An idle instruction makes no difference. -/
theorem action_idle {instr : Instr} (idle : instr.Idle left) :
    instr.action machine strings frame = .trap ∨ instr.action machine strings frame = .stuck ∨
      ∃ next, instr.action machine strings frame = .proceed next ∧ Agree left next other := by
  cases instr with
  | binary opcode dest leftOperand rightOperand =>
      simp only [Instr.action]
      split
      · rename_i first second _ _
        cases opcode.compute machine first second with
        | value result => exact .inr (.inr ⟨_, rfl, agree.define_left idle result⟩)
        | trap => exact .inl rfl
        | stuck => exact .inr (.inl rfl)
      · exact .inr (.inl rfl)
  | unary opcode dest operand =>
      simp only [Instr.action]
      split
      · rename_i value _
        cases opcode.compute machine value with
        | value result => exact .inr (.inr ⟨_, rfl, agree.define_left idle result⟩)
        | trap => exact .inl rfl
        | stuck => exact .inr (.inl rfl)
      · exact .inr (.inl rfl)
  | copy dest value =>
      simp only [Instr.action]
      split
      · exact .inr (.inr ⟨_, rfl, agree.define_left idle _⟩)
      · exact .inr (.inl rfl)
  | alloca place => exact .inr (.inr ⟨_, rfl, agree.make_left idle⟩)
  | load dest address =>
      cases address with
      | slot place =>
          simp only [Instr.action]
          split
          · exact .inr (.inr ⟨_, rfl, agree.define_left idle _⟩)
          · exact .inr (.inl rfl)
      | constant | param | temp | string | stray => exact .inr (.inl rfl)
  | store address content =>
      cases address with
      | slot place =>
          simp only [Instr.action]
          split
          · rename_i there _
            exact .inr (.inr ⟨_, rfl, agree.fill_left (by rw [there]; rfl) (idle place rfl) _⟩)
          · exact .inr (.inl rfl)
      | constant | param | temp | string | stray => exact .inr (.inl rfl)
  | call | jump | branch | ret => exact idle.elim

end Frame.Agree

/-! ### Deletions -/

namespace Function

variable {function : Function} {known : Callee → Bool}

/-- A function runs like itself without idle instructions. -/
theorem simulates_keepInstrs {keep : Instr → Bool}
    (idle : ∀ instr ∈ function.instrs, keep instr = false →
      instr.Idle (function.instrs.filter keep)) :
    function.Simulates machine strings (function.keepInstrs keep).1 := by
  intro call call' calls bound arguments trace
  refine enter_upto (Frame.Agree (function.instrs.filter keep)) (fun _ => True)
    (fun _ _ _ _ => trivial)
    (fun block _ goto goto' gotos => ?_) bound trivial _ _ trace (.refl _ _)
  rw [code_keepInstrs]
  have within : ∀ instr ∈ function.code block, instr ∈ function.instrs :=
    fun _ => mem_instrs_of_code
  rw [targetsOf] at gotos
  -- The code of the block is followed instruction by instruction, with what is skipped on the way.
  generalize function.code block = code at within gotos
  induction code with
  | nil => exact .nil _
  | cons instr rest ih =>
      rw [← List.singleton_append, targetIds_append] at gotos
      have later := ih (fun other member => within other (List.mem_cons_of_mem _ member))
        fun target jumps => gotos target (List.mem_append_right _ jumps)
      have own := within instr List.mem_cons_self
      cases kept : keep instr with
      | true =>
          rw [List.filter_cons_of_pos kept]
          exact .cons calls (fun target jumps => gotos target (List.mem_append_left _ jumps))
            (fun frame other agree => agree.action_upto (List.mem_filter.mpr ⟨own, kept⟩)) later
      | false =>
          rw [List.filter_cons_of_neg (by simp [kept])]
          exact .skip (fun frame other agree => agree.action_idle (idle instr own kept)) later

theorem simulates_dropDeadStores (function : Function) :
    function.Simulates machine strings function.dropDeadStores.1 := by
  refine simulates_keepInstrs fun instr member dropped => ?_
  cases instr with
  | store address content =>
      rintro place rfl dest slot loads same
      have loaded : .slot slot ∈ function.loaded :=
        List.mem_filterMap.mpr ⟨_, List.mem_of_mem_filter loads, rfl⟩
      have listed := List.any_eq_false.mp dropped _ loaded
      simp [Value.isSame, same] at listed
  | binary | unary | copy | alloca | load | call | jump | branch | ret => cases dropped

theorem simulates_dropUnused (function : Function) :
    function.Simulates machine strings function.dropUnused.1 := by
  refine simulates_keepInstrs fun instr member dropped => ?_
  have unread : ∀ result, instr.result? = some result → ∀ use ∈ function.instrs,
      ∀ value ∈ use.operands, result.isSame value = false := by
    intro result isResult use within value read
    rw [Bool.or_eq_false_iff, isResult] at dropped
    have used : value ∈ function.used := List.mem_flatMap.mpr ⟨use, within, read⟩
    simpa using List.any_eq_false.mp dropped.2 value used
  cases instr with
  | binary | unary | copy | load =>
      intro use left temp read same
      have differ := unread _ rfl use (List.mem_of_mem_filter left) _ read
      simp [Value.isSame, same] at differ
  | alloca place =>
      intro use left slot read same
      have differ := unread _ rfl use (List.mem_of_mem_filter left) _ read
      simp [Value.isSame, same] at differ
  | store | call | jump | branch | ret => cases dropped

theorem Orderly.simulates_sweep (orderly : function.Orderly known) :
    function.Simulates machine strings function.sweep.1 := by
  have blocks : function.Simulates machine strings function.dropUnreachable.1 :=
    .of_code orderly.wired.dropUnreachable_code.2.1
  exact (blocks.trans (simulates_dropDeadStores _)).trans (simulates_dropUnused _)

theorem Orderly.simulates_sweepWithin (rounds : Nat) (orderly : function.Orderly known) :
    function.Simulates machine strings (function.sweepWithin rounds).1 := by
  induction rounds generalizing function with
  | zero => exact .refl function
  | succ rounds ih =>
      rw [Function.sweepWithin]
      dsimp only
      split
      · exact orderly.simulates_sweep.trans (ih orderly.sweep)
      · exact orderly.simulates_sweep

/-- **A function runs like itself without its dead code.** -/
theorem Orderly.simulates_eliminateDeadCode (orderly : function.Orderly known) :
    function.Simulates machine strings function.eliminateDeadCode.1 :=
  orderly.simulates_sweepWithin _

end Function

end ScriptCompiler.IR
