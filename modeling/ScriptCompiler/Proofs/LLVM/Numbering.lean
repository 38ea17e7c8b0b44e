import ScriptCompiler.Proofs.LLVM.Typing

/-!
# Numbers of results

The results of generated code are numbered in the order in which they are made, and an operand that
comes to stand for a value stands for it to the end.  So there is one assignment of operands to the
values of a function that all of its code agrees with (`EmitsFunction.exists_stand`), and the
numbers that the code of an instruction makes stand for its own result alone (`Placed.owner`).

This is so because copies are made of constants only: the copy of a result would share its number.
-/

namespace ScriptCompiler

open IR

/-- Copies are made of constants. -/
def IR.Function.CopiesConstants (function : IR.Function) : Prop :=
  ∀ dest value, .copy dest value ∈ function.instrs → ∃ content, value = .constant content

namespace LLVM

/-- Parameters and slots are referred to by their names. -/
def Spells : Value → Operand → Prop
  | .param place, operand => operand = .param (paramName place) (.ofBasic place.type)
  | .slot place, operand => operand = .slot (slotName place) (.ofBasic place.type)
  | _, _ => True

/-- What is known of the operands that stand for values behind some instructions of a function. -/
structure Position (source : IR.Function) (earlier : List Instr) (locals : Locals) : Prop where
  /-- There are operands for what has been defined. -/
  stands : Stands Spells (standing source earlier) locals.operands
  /-- There are no others. -/
  keyed : ∀ id operand, locals.operands.lookup id = some operand →
    ∃ value ∈ standing source earlier, value.id? = some id
  /-- Results are numbered below the next one. -/
  bounded : ∀ id number type, locals.operands.lookup id = some (.result number type) →
    number < locals.next

/-- An assignment of operands to values that is the one of a position so far. -/
structure Placed (stand : Nat → Option Operand) (locals : Locals) : Prop where
  /-- What stands for a value stands for it to the end. -/
  lasts : ∀ id operand, locals.operands.lookup id = some operand → stand id = some operand
  /-- Numbers below the next one are those of values that have been defined. -/
  numbered : ∀ id number type, stand id = some (.result number type) → number < locals.next →
    (locals.operands.lookup id).isSome

namespace Placed

variable {stand : Nat → Option Operand} {locals : Locals} {id : Nat} {type : LType}

theorem assigned {operand : Operand} (placed : Placed stand (locals.assign id operand)) :
    stand id = some operand :=
  placed.lasts id operand (by simp [Locals.assign])

theorem defined (placed : Placed stand (locals.define id type)) :
    stand id = some (.result locals.next type) :=
  placed.lasts id _ (by simp [Locals.define])

theorem received {dest : Temp} {number next : Nat}
    (placed : Placed stand (locals.receive (some dest) (some number) type next)) :
    stand dest.id = some (.result number type) :=
  placed.lasts dest.id _ (by simp [Locals.receive])

end Placed

section Step

variable {env : Surroundings} {source : IR.Function} {earlier later : List Instr} {instr : Instr}
  {locals last : Locals} {insts : List Inst} {terminator : Option Terminator}
  {stand : Nat → Option Operand}

theorem Passes.next_le {operands : List (Nat × Operand)} {fixed next final : Nat}
    {values : List Value} {passed : List Operand}
    (passes : Passes env operands fixed next values insts passed final) : next ≤ final := by
  induction passes with
  | nil => exact Nat.le_refl _
  | plain _ _ _ ih => exact ih
  | widened _ _ _ ih => exact Nat.le_of_succ_le ih

theorem Emits.next_le (emits : Emits env locals instr insts terminator last) :
    locals.next ≤ last.next := by
  cases emits with
  | alloca | copy | store | jump | branch | leave | ret => exact Nat.le_refl _
  | load | binary | unary => exact Nat.le_succ _
  | call _ passes _ => exact Nat.le_succ_of_le passes.next_le
  | command _ passes _ => exact passes.next_le

/-- A call whose value is kept has a value. -/
theorem result_ne_void {dest : Temp} {callee : Callee} {values : List Value} {name : Bytes}
    {type : FunctionType}
    (typed : (Instr.call (some dest) callee values).Typed source env.module.interface)
    (called : env.callee callee = .ok (name, type)) : type.result ≠ .void := by
  obtain ⟨linkage, calleeName⟩ := callee
  cases linkage with
  | defined =>
      obtain ⟨signature, known, -, kept, -⟩ := typed
      obtain ⟨function, found, -, rfl⟩ := callee_defined called
      have same : function.signature = signature := by
        simpa [IR.Module.interface, found] using known
      exact ofBasic_ne_void (same ▸ (kept dest rfl).2)
  | external => exact absurd typed.2.1 (by simp)
  | unknown => exact typed.elim

/-- No operand stands for the result of an instruction before it. -/
theorem Position.fresh (position : Position source earlier locals) (grounded : source.Grounded)
    (split : source.instrs = earlier ++ instr :: later) {dest : Temp}
    (isResult : instr.result? = some (.temp dest)) :
    locals.operands.lookup dest.id = none := by
  cases found : locals.operands.lookup dest.id with
  | none => rfl
  | some operand =>
      obtain ⟨value, member, isId⟩ := position.keyed _ _ found
      exact absurd isId (fresh_of_grounded grounded split isResult value member)

section Typed

variable (typed : instr.Typed source env.module.interface)
  (copies : ∀ dest value, instr = .copy dest value → ∃ content, value = .constant content)
include typed copies

/-- An operand that comes to stand for a result has a new number, unless it is a constant. -/
theorem Emits.number_range (emits : Emits env locals instr insts terminator last) {dest : Temp}
    {operand : Operand} (isResult : instr.result? = some (.temp dest))
    (assigned : last.operands = (dest.id, operand) :: locals.operands) {number : Nat} {type : LType}
    (isNumber : operand = .result number type) : locals.next ≤ number ∧ number < last.next := by
  subst isNumber
  cases emits with
  | alloca | store | jump | branch | leave | ret => cases isResult
  | copy found =>
      obtain ⟨content, rfl⟩ := copies _ _ rfl
      simp only [Locals.assign, List.cons.injEq, Prod.mk.injEq, and_true] at assigned
      rw [assigned.2] at found
      cases content <;> simp [Surroundings.operand?] at found
  | load | binary | unary =>
      simp only [Locals.define, List.cons.injEq, Prod.mk.injEq, Operand.result.injEq] at assigned
      obtain ⟨⟨-, rfl, -⟩, -⟩ := assigned
      exact ⟨Nat.le_refl _, Nat.lt_succ_self _⟩
  | @call target _ _ _ _ _ _ next _ passes _ =>
      cases target with
      | none => cases isResult
      | some target =>
          simp only [Locals.receive, Option.map_some, Option.toList_some, List.cons_append,
            List.nil_append, List.cons.injEq, Prod.mk.injEq, Operand.result.injEq,
            Option.getD_some] at assigned
          obtain ⟨⟨-, rfl, -⟩, -⟩ := assigned
          exact ⟨passes.next_le, Nat.lt_succ_self _⟩
  | @command target _ _ _ _ _ _ _ called _ isVoid =>
      cases target with
      | none => cases isResult
      | some target => exact absurd isVoid (result_ne_void typed called)

variable (grounded : source.Grounded) (split : source.instrs = earlier ++ instr :: later)
  (position : Position source earlier locals)
include grounded split position

/-- A position behind an instruction. -/
theorem Position.step (emits : Emits env locals instr insts terminator last) :
    Position source (earlier ++ [instr]) last where
  stands := position.stands.step grounded split emits fun _ _ _ _ => trivial
  keyed := by
    have grows : standing source earlier ⊆ standing source (earlier ++ [instr]) := by
      intro value member
      rw [standing, List.filterMap_append, ← List.append_assoc]
      exact List.mem_append_left _ member
    intro id operand found
    rcases emits.assigns with ⟨same, -⟩ | ⟨dest, own, isResult, same⟩
    · rw [same] at found
      obtain ⟨value, member, isId⟩ := position.keyed id operand found
      exact ⟨value, grows member, isId⟩
    · by_cases here : id = dest.id
      · refine ⟨.temp dest, ?_, congrArg some here.symm⟩
        refine List.mem_append_right _ (List.mem_filterMap.mpr ⟨instr, ?_, isResult⟩)
        simp
      · rw [same, List.lookup_cons, beq_false_of_ne here] at found
        obtain ⟨value, member, isId⟩ := position.keyed id operand found
        exact ⟨value, grows member, isId⟩
  bounded := by
    intro id number type found
    rcases emits.assigns with ⟨same, -⟩ | ⟨dest, own, isResult, same⟩
    · rw [same] at found
      exact Nat.lt_of_lt_of_le (position.bounded id number type found) emits.next_le
    · by_cases here : id = dest.id
      · rw [same, here, List.lookup_cons, beq_self_eq_true] at found
        exact (emits.number_range typed copies isResult same (Option.some.inj found)).2
      · rw [same, List.lookup_cons, beq_false_of_ne here] at found
        exact Nat.lt_of_lt_of_le (position.bounded id number type found) emits.next_le

/-- An assignment is that of a position if it is that of the next one. -/
theorem Placed.before (emits : Emits env locals instr insts terminator last)
    (placed : Placed stand last) : Placed stand locals where
  lasts := by
    intro id operand found
    refine placed.lasts id operand ?_
    rcases emits.assigns with ⟨same, -⟩ | ⟨dest, own, isResult, same⟩
    · rw [same]
      exact found
    · have differ : id ≠ dest.id := by
        rintro rfl
        rw [position.fresh grounded split isResult] at found
        cases found
      rw [same, List.lookup_cons, beq_false_of_ne differ]
      exact found
  numbered := by
    intro id number type stands below
    have there := placed.numbered id number type stands (Nat.lt_of_lt_of_le below emits.next_le)
    rcases emits.assigns with ⟨same, -⟩ | ⟨dest, own, isResult, same⟩
    · rwa [same] at there
    · by_cases here : id = dest.id
      · have own_ : stand id = some own := placed.lasts id own (by simp [same, here])
        have range := emits.number_range typed copies isResult same
          (Option.some.inj (own_.symm.trans stands))
        omega
      · rwa [same, List.lookup_cons, beq_false_of_ne here] at there

/-- The numbers that an instruction makes stand for its own result alone. -/
theorem Placed.owner (emits : Emits env locals instr insts terminator last)
    (placed : Placed stand last) {id number : Nat} {type : LType}
    (stands : stand id = some (.result number type)) (least : locals.next ≤ number)
    (most : number < last.next) : ∃ dest, instr.result? = some (.temp dest) ∧ dest.id = id := by
  have there := placed.numbered id number type stands most
  have before := placed.before typed copies grounded split position emits
  have old : (locals.operands.lookup id).isSome → False := by
    intro found
    obtain ⟨operand, found⟩ := Option.isSome_iff_exists.mp found
    have same := Option.some.inj ((before.lasts id operand found).symm.trans stands)
    have below := position.bounded id number type (same ▸ found)
    omega
  rcases emits.assigns with ⟨same, -⟩ | ⟨dest, own, isResult, same⟩
  · rw [same] at there
    exact (old there).elim
  · by_cases here : id = dest.id
    · exact ⟨dest, isResult, here.symm⟩
    · rw [same, List.lookup_cons, beq_false_of_ne here] at there
      exact (old there).elim

end Typed

end Step

/-! ### Blocks -/

/-- The code of a block of a function, behind given instructions, agrees with an assignment. -/
def Coded (env : Surroundings) (source : IR.Function) (stand : Nat → Option Operand)
    (start : List Inst) (block : IR.Block) (code : Block) : Prop :=
  ∃ earlier later locals insts last, source.instrs = earlier ++ (block.instrs ++ later) ∧
    Position source earlier locals ∧
    EmitsAll env locals none block.instrs insts code.terminator last ∧ Placed stand last ∧
    code.insts = start ++ insts ∧ code.label = block.name.label

section Blocks

variable {env : Surroundings} {source : IR.Function} {stand : Nat → Option Operand}
  {earlier later instrs : List Instr} {locals last : Locals}

theorem Position.beginBlock (position : Position source earlier locals) (block : IR.Block) :
    Position source earlier (locals.beginBlock block) := by
  unfold Locals.beginBlock
  split
  · refine ⟨position.stands, position.keyed, fun id number type found => ?_⟩
    exact Nat.lt_succ_of_lt (position.bounded id number type found)
  · exact position

theorem Placed.of_beginBlock {block : IR.Block} (placed : Placed stand (locals.beginBlock block)) :
    Placed stand locals := by
  unfold Locals.beginBlock at placed
  split at placed
  · refine ⟨placed.lasts, fun id number type stands below => ?_⟩
    exact placed.numbered id number type stands (Nat.lt_succ_of_lt below)
  · exact placed

theorem mem_operands_of_lookup {operands : List (Nat × Operand)} {id : Nat} {operand : Operand}
    (found : operands.lookup id = some operand) : (id, operand) ∈ operands := by
  obtain ⟨before, behind, rfl, -⟩ := List.lookup_eq_some_iff.mp found
  simp

theorem Position.start (grounded : source.Grounded) : Position source [] (.start source) where
  stands := Stands.start grounded (fun _ _ => rfl) fun _ _ => rfl
  keyed := by
    intro id operand found
    have member := mem_operands_of_lookup found
    rw [standing, List.filterMap_nil, List.append_nil]
    rcases List.mem_append.mp member with isSlot | isParam
    · obtain ⟨place, own, same⟩ := List.mem_map.mp isSlot
      exact ⟨.slot place, List.mem_append_right _ (List.mem_map_of_mem own),
        congrArg (some ∘ Prod.fst) same⟩
    · obtain ⟨place, own, same⟩ := List.mem_map.mp isParam
      exact ⟨.param place, List.mem_append_left _ (List.mem_map_of_mem own),
        congrArg (some ∘ Prod.fst) same⟩
  bounded := by
    intro id number type found
    have member := mem_operands_of_lookup found
    rcases List.mem_append.mp member with isSlot | isParam
    · obtain ⟨place, -, same⟩ := List.mem_map.mp isSlot
      cases same
    · obtain ⟨place, -, same⟩ := List.mem_map.mp isParam
      cases same

variable (grounded : source.Grounded)
  (typed : ∀ instr ∈ source.instrs, instr.Typed source env.module.interface)
  (copies : source.CopiesConstants)
include grounded typed copies

theorem Position.keeps (within : List Inst) : Keeps env source within (Position source) := by
  intro earlier instr later locals insts terminator last split emits _ position
  have member : instr ∈ source.instrs := by simp [split]
  exact position.step (typed instr member)
    (fun dest value same => copies dest value (same ▸ member)) grounded split emits

theorem Placed.before_all {insts : List Inst} {before terminator : Option Terminator}
    (split : source.instrs = earlier ++ (instrs ++ later))
    (position : Position source earlier locals)
    (emits : EmitsAll env locals before instrs insts terminator last) (placed : Placed stand last) :
    Placed stand locals := by
  induction emits generalizing earlier with
  | nil => exact placed
  | @cons _ _ _ _ _ _ instr instrs insts _ first rest ih =>
      have member : instr ∈ source.instrs := by simp [split]
      have here : source.instrs = earlier ++ instr :: (instrs ++ later) := by simpa using split
      have next := Position.keeps grounded typed copies insts _ _ _ _ _ _ _ here first
        (List.Subset.refl _) position
      exact (ih (by simpa using split) next placed).before (typed instr member)
        (fun dest value same => copies dest value (same ▸ member)) grounded here position first

/-- **There is one assignment that the code of all blocks agrees with.** -/
theorem EmitsBlocks.exists_stand {blocks : List IR.Block} {codes : List Block}
    (split : source.instrs = earlier ++ blocks.flatMap IR.Block.instrs)
    (position : Position source earlier locals) (emits : EmitsBlocks env locals [] blocks codes) :
    ∃ stand, Placed stand locals ∧ List.Forall₂ (Coded env source stand []) blocks codes := by
  induction blocks generalizing earlier locals codes with
  | nil =>
      cases emits
      refine ⟨fun id => locals.operands.lookup id,
        ⟨fun _ _ found => found, fun _ _ _ stands _ => ?_⟩, .nil⟩
      exact Option.isSome_of_eq_some stands
  | cons block blocks ih =>
      cases emits with
      | @cons _ last _ insts _ _ _ others first rest =>
          have begun := position.beginBlock block
          have behind :=
            (Position.keeps grounded typed copies insts).all (by simpa using split) first
            (List.Subset.refl _) begun
          obtain ⟨stand, placed, coded⟩ := ih (by simpa using split) behind rest
          have here := placed.before_all grounded typed copies (by simpa using split) begun first
          refine ⟨stand, here.of_beginBlock, .cons ?_ coded⟩
          exact ⟨_, _, _, insts, last, by simpa using split, begun, first, placed, rfl, rfl⟩

end Blocks

/-- The code of a function agrees with one assignment of operands to its values. -/
theorem EmitsFunction.exists_stand {module : IR.Module} {wraps : Bool} {source : IR.Function}
    {code : Function} (emits : EmitsFunction module wraps source code) (grounded : source.Grounded)
    (typed : ∀ instr ∈ source.instrs, instr.Typed source module.interface)
    (copies : source.CopiesConstants) {entry : IR.Block} {others : List IR.Block}
    (blocks : source.blocks = entry :: others) :
    ∃ stand first rest, code.blocks = first :: rest ∧
      Coded ⟨module, wraps, source⟩ source stand (allocas source) entry first ∧
      List.Forall₂ (Coded ⟨module, wraps, source⟩ source stand []) others rest := by
  have made := emits.blocks
  have split : source.instrs = entry.instrs ++ others.flatMap IR.Block.instrs := by
    rw [IR.Function.instrs, blocks, List.flatMap_cons]
  rw [blocks] at made
  generalize code.blocks = codes at made
  cases made with
  | @cons _ last _ insts _ _ _ rest first later =>
      have begun := (Position.start grounded).beginBlock entry
      have behind :=
        (@Position.keeps ⟨module, wraps, source⟩ source grounded typed copies insts).all
        split first (List.Subset.refl _) begun
      obtain ⟨stand, placed, coded⟩ := later.exists_stand grounded typed copies split behind
      exact ⟨stand, _, rest, rfl, ⟨[], _, _, insts, last, split, begun, first, placed, rfl, rfl⟩,
        coded⟩

end LLVM

end ScriptCompiler
