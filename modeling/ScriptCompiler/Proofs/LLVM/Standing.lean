import ScriptCompiler.Proofs.IR.Dominance
import ScriptCompiler.Proofs.LLVM.Emission

/-!
# Operands that stand for values

In the course of generating a function operands come to stand for its parameters, its slots and the
results of its instructions.  Where every number is defined once, an operand keeps standing for its
value, and where definitions come first, there is one for every value that is read.

What is kept from instruction to instruction is kept from block to block (`EmitsBlocks.positions`).
-/

namespace ScriptCompiler.LLVM

open IR

/-- The values that operands stand for behind some instructions of a function. -/
def standing (source : IR.Function) (earlier : List Instr) : List Value :=
  source.params.map Value.param ++ (slots source).map Value.slot ++ earlier.filterMap Instr.result?

/-- Operands stand for values, and each one fits its value. -/
def Stands (fits : Value → Operand → Prop) (values : List Value) (operands : List (Nat × Operand)) :
    Prop :=
  ∀ value ∈ values, ∀ id ∈ value.id?, ∃ operand, operands.lookup id = some operand ∧
    fits value operand

section Step

variable {fits : Value → Operand → Prop} {source : IR.Function} {earlier later : List Instr}
  {instr : Instr}

theorem slot_mem_slots_iff {place : Place} :
    place ∈ slots source ↔ .alloca place ∈ source.instrs := by
  rw [slots, List.mem_filterMap]
  constructor
  · rintro ⟨instr, member, isSlot⟩
    cases instr with
    | alloca slot =>
        cases isSlot
        exact member
    | binary | unary | copy | load | store | call | jump | branch | ret => cases isSlot
  · exact fun member => ⟨_, member, rfl⟩

/-- The numbers of slots are among those that are defined. -/
theorem slots_sublist (source : IR.Function) :
    ((slots source).map Place.id).Sublist (source.results.filterMap Value.id?) := by
  unfold slots IR.Function.results
  induction source.instrs with
  | nil => exact List.Sublist.refl _
  | cons instr rest ih =>
      cases instr with
      | alloca slot => simpa [Instr.result?, Value.id?] using ih
      | call dest callee arguments =>
          cases dest with
          | none => exact ih
          | some dest =>
              simpa [Instr.result?, Value.id?] using ih.trans (List.sublist_cons_self _ _)
      | binary | unary | copy | load =>
          simpa [Instr.result?, Value.id?] using ih.trans (List.sublist_cons_self _ _)
      | store | jump | branch | ret => exact ih

theorem slots_nodup_of_grounded (grounded : source.Grounded) :
    ((slots source).map Place.id).Nodup :=
  (List.nodup_append.mp grounded.defined_once).2.1.sublist (slots_sublist source)

/-- An instruction defines a result or a slot. -/
theorem result?_cases {value : Value} (isResult : instr.result? = some value) :
    (∃ dest, value = .temp dest) ∨ ∃ place, value = .slot place ∧ instr = .alloca place := by
  cases instr with
  | binary | unary | copy | load => exact .inl ⟨_, (Option.some.inj isResult).symm⟩
  | alloca slot => exact .inr ⟨slot, (Option.some.inj isResult).symm, rfl⟩
  | call dest callee arguments =>
      obtain ⟨temp, -, same⟩ := Option.map_eq_some_iff.mp isResult
      exact .inl ⟨temp, same.symm⟩
  | store | jump | branch | ret => cases isResult

/-- A result has a number that no operand stands for yet. -/
theorem fresh_of_grounded (grounded : source.Grounded)
    (split : source.instrs = earlier ++ instr :: later)
    {dest : Temp} (result : instr.result? = some (.temp dest)) :
    ∀ value ∈ standing source earlier, value.id? ≠ some dest.id := by
  have once := grounded.defined_once
  rw [IR.Function.results, split, List.filterMap_append, List.filterMap_cons, result,
    List.filterMap_append, List.filterMap_cons] at once
  simp only [Value.id?] at once
  have apart := List.nodup_append.mp once
  have inner := List.nodup_append.mp apart.2.1
  intro value member same
  rcases List.mem_append.mp member with params | results
  · rcases List.mem_append.mp params with isParam | isSlot
    · obtain ⟨place, own, rfl⟩ := List.mem_map.mp isParam
      exact apart.2.2 place.id (List.mem_map_of_mem own) dest.id (by simp) (Option.some.inj same)
    · obtain ⟨place, own, rfl⟩ := List.mem_map.mp isSlot
      have made := slot_mem_slots_iff.mp own
      rw [split] at made
      have isId : (Value.slot place).id? = some dest.id := same
      rcases List.mem_append.mp made with before | behind
      · have id : dest.id ∈ (earlier.filterMap Instr.result?).filterMap Value.id? :=
          List.mem_filterMap.mpr ⟨_, List.mem_filterMap.mpr ⟨_, before, rfl⟩, isId⟩
        exact inner.2.2 dest.id id dest.id List.mem_cons_self rfl
      · rcases List.mem_cons.mp behind with here | after
        · rw [← here] at result
          cases result
        · have id : dest.id ∈ (later.filterMap Instr.result?).filterMap Value.id? :=
            List.mem_filterMap.mpr ⟨_, List.mem_filterMap.mpr ⟨_, after, rfl⟩, isId⟩
          exact (List.nodup_cons.mp inner.2.1).1 id
  · have id : dest.id ∈ (earlier.filterMap Instr.result?).filterMap Value.id? :=
      List.mem_filterMap.mpr ⟨_, results, same⟩
    exact inner.2.2 dest.id id dest.id List.mem_cons_self rfl

/-- Everything that an instruction reads under a number has an operand. -/
theorem mem_standing (grounded : source.Grounded)
    (split : source.instrs = earlier ++ instr :: later)
    {value : Value} (read : value ∈ instr.operands) {id : Nat} (numbered : value.id? = some id) :
    value ∈ standing source earlier := by
  cases value with
  | constant | string | stray => cases numbered
  | param place =>
      have own := grounded.params_own instr (by rw [split]; simp) place read
      exact List.mem_append_left _ (List.mem_append_left _ (List.mem_map_of_mem own))
  | slot | temp =>
      obtain ⟨definition, before, isResult⟩ := grounded.ordered _ _ _ split _ read rfl
      exact List.mem_append_right _ (List.mem_filterMap.mpr ⟨definition, before, isResult⟩)

/-- What an instruction does to the operands that stand for values. -/
theorem Emits.assigns {env : Surroundings} {locals last : Locals} {insts : List Inst}
    {terminator : Option Terminator} (emits : Emits env locals instr insts terminator last) :
    last.operands = locals.operands ∧ (∀ dest, instr.result? ≠ some (.temp dest)) ∨
      ∃ dest operand, instr.result? = some (.temp dest) ∧
        last.operands = (dest.id, operand) :: locals.operands := by
  cases emits with
  | alloca | store | jump | branch | leave | ret =>
      exact .inl ⟨rfl, fun dest isResult => by cases isResult⟩
  | copy | load | binary | unary => exact .inr ⟨_, _, rfl, rfl⟩
  | @call dest _ _ _ _ _ _ _ _ _ _ =>
      cases dest with
      | none => exact .inl ⟨rfl, fun dest isResult => by cases isResult⟩
      | some dest => exact .inr ⟨dest, _, rfl, rfl⟩
  | @command dest _ _ _ _ _ _ _ _ _ _ =>
      cases dest with
      | none => exact .inl ⟨rfl, fun dest isResult => by cases isResult⟩
      | some dest => exact .inr ⟨dest, _, rfl, rfl⟩

/-- Operands keep standing for values behind an instruction, and a fitting one stands for its
result. -/
theorem Stands.step {env : Surroundings} {locals last : Locals} {insts : List Inst}
    {terminator : Option Terminator} (grounded : source.Grounded)
    (split : source.instrs = earlier ++ instr :: later)
    (stands : Stands fits (standing source earlier) locals.operands)
    (emits : Emits env locals instr insts terminator last)
    (fit : ∀ dest, instr.result? = some (.temp dest) →
      ∀ operand, last.operands = (dest.id, operand) :: locals.operands →
        fits (.temp dest) operand) :
    Stands fits (standing source (earlier ++ [instr])) last.operands := by
  intro value member id isId
  rw [standing, List.filterMap_append, ← List.append_assoc] at member
  rcases emits.assigns with ⟨same, none_⟩ | ⟨dest, operand, isResult, same⟩
  · rw [same]
    refine stands value ?_ id isId
    rcases List.mem_append.mp member with before | here
    · exact before
    · obtain ⟨_, isInstr, isResult⟩ := List.mem_filterMap.mp here
      obtain rfl := List.mem_singleton.mp isInstr
      -- What is defined without an operand of its own is a slot, which has one from the start.
      rcases result?_cases isResult with ⟨dest, rfl⟩ | ⟨place, rfl, rfl⟩
      · exact absurd isResult (none_ dest)
      · refine List.mem_append_left _ (List.mem_append_right _ (List.mem_map_of_mem ?_))
        rw [slot_mem_slots_iff, split]
        simp
  · rw [same]
    rcases List.mem_append.mp member with before | here
    · obtain ⟨found, isFound, fitting⟩ := stands value before id isId
      refine ⟨found, ?_, fitting⟩
      have differ : id ≠ dest.id := by
        rintro rfl
        exact fresh_of_grounded grounded split isResult value before isId
      rw [List.lookup_cons, beq_false_of_ne differ]
      exact isFound
    · obtain ⟨_, isInstr, isValue⟩ := List.mem_filterMap.mp here
      obtain rfl := List.mem_singleton.mp isInstr
      obtain rfl := Option.some.inj (isResult.symm.trans isValue)
      obtain rfl : dest.id = id := Option.some.inj isId
      exact ⟨operand, by simp, fit dest isResult operand same⟩

theorem lookup_of_mem {κ α : Type} [BEq κ] [LawfulBEq κ] {entries : List (κ × α)} {id : κ}
    {item : α} (once : (entries.map Prod.fst).Nodup) (member : (id, item) ∈ entries) :
    entries.lookup id = some item := by
  induction entries with
  | nil => cases member
  | cons entry rest ih =>
      rw [List.map_cons, List.nodup_cons] at once
      rcases List.mem_cons.mp member with rfl | later
      · simp
      · have differ : id ≠ entry.1 := fun same =>
          once.1 (same ▸ List.mem_map_of_mem later)
        rw [List.lookup_cons, beq_false_of_ne differ]
        exact ih once.2 later

/-- At first operands stand for the parameters and the slots. -/
theorem Stands.start (grounded : source.Grounded)
    (params : ∀ place ∈ source.params,
      fits (.param place) (.param (paramName place) (.ofBasic place.type)))
    (made : ∀ place ∈ slots source,
      fits (.slot place) (.slot (slotName place) (.ofBasic place.type))) :
    Stands fits (standing source []) (Locals.start source).operands := by
  have once : ((Locals.start source).operands.map Prod.fst).Nodup := by
    have same : (Locals.start source).operands.map Prod.fst =
        (slots source).map Place.id ++ source.params.map Place.id := by
      simp [Locals.start, Function.comp_def]
    have apart := List.nodup_append.mp grounded.defined_once
    rw [same, List.nodup_append]
    refine ⟨slots_nodup_of_grounded grounded, apart.1, fun id isSlot other isParam equal => ?_⟩
    exact apart.2.2 other isParam id ((slots_sublist source).subset isSlot) equal.symm
  intro value member id isId
  rw [standing, List.filterMap_nil, List.append_nil] at member
  rcases List.mem_append.mp member with isParam | isSlot
  · obtain ⟨place, own, rfl⟩ := List.mem_map.mp isParam
    obtain rfl : place.id = id := Option.some.inj isId
    exact ⟨_, lookup_of_mem once (List.mem_append_right _ (List.mem_map.mpr ⟨place, own, rfl⟩)),
      params place own⟩
  · obtain ⟨place, own, rfl⟩ := List.mem_map.mp isSlot
    obtain rfl : place.id = id := Option.some.inj isId
    exact ⟨_, lookup_of_mem once (List.mem_append_left _ (List.mem_map.mpr ⟨place, own, rfl⟩)),
      made place own⟩

end Step

/-! ### Positions -/

section Positions

variable {env : Surroundings} {source : IR.Function} {within : List Inst}
  {holds : List Instr → Locals → Prop}

/-- What holds behind some instructions of a function holds behind the next one, where its code is
among given instructions. -/
def Keeps (env : Surroundings) (source : IR.Function) (within : List Inst)
    (holds : List Instr → Locals → Prop) : Prop :=
  ∀ earlier instr later locals insts terminator last, source.instrs = earlier ++ instr :: later →
    Emits env locals instr insts terminator last → insts ⊆ within → holds earlier locals →
    holds (earlier ++ [instr]) last

theorem Keeps.all (keeps : Keeps env source within holds) {earlier instrs later : List Instr}
    {locals last : Locals} {before terminator : Option Terminator} {insts : List Inst}
    (split : source.instrs = earlier ++ (instrs ++ later))
    (emits : EmitsAll env locals before instrs insts terminator last) (among : insts ⊆ within)
    (here : holds earlier locals) : holds (earlier ++ instrs) last := by
  induction emits generalizing earlier with
  | nil => simpa using here
  | cons first rest ih =>
      have next := keeps _ _ _ _ _ _ _ (by simpa using split) first
        (fun inst member => among (List.mem_append_left _ member)) here
      simpa using ih (by simpa using split)
        (fun inst member => among (List.mem_append_right _ member)) next

/-- The code of a block of a function, made where something holds. -/
def MadeFrom (env : Surroundings) (source : IR.Function) (holds : List Instr → Locals → Prop)
    (start : List Inst) (block : IR.Block) (code : Block) : Prop :=
  ∃ earlier later locals insts last, source.instrs = earlier ++ (block.instrs ++ later) ∧
    holds earlier locals ∧ EmitsAll env locals none block.instrs insts code.terminator last ∧
    code.insts = start ++ insts ∧ code.label = block.name.label

section Blocks

variable (keeps : Keeps env source within holds)
  (begins : ∀ earlier locals block, holds earlier locals → holds earlier (locals.beginBlock block))
  {locals : Locals} {start : List Inst} {earlier : List Instr} {block : IR.Block}
  {blocks : List IR.Block} {codes : List Block}
include keeps begins

/-- What is kept from instruction to instruction holds at the first block and behind it. -/
theorem EmitsBlocks.first
    (split : source.instrs = earlier ++ (block :: blocks).flatMap IR.Block.instrs)
    (emits : EmitsBlocks env locals start (block :: blocks) codes)
    (among : ∀ code ∈ codes, code.insts ⊆ within) (here : holds earlier locals) :
    ∃ code rest last, codes = code :: rest ∧ MadeFrom env source holds start block code ∧
      EmitsBlocks env last [] blocks rest ∧ holds (earlier ++ block.instrs) last := by
  cases emits with
  | cons first rest =>
      have own := among _ List.mem_cons_self
      have begun := begins _ _ block here
      have next := keeps.all (by simpa using split) first
        (fun inst member => own (List.mem_append_right _ member)) begun
      exact ⟨_, _, _, rfl, ⟨earlier, _, _, _, _, split, begun, first, rfl, rfl⟩, rest, next⟩

/-- What is kept from instruction to instruction holds from block to block. -/
theorem EmitsBlocks.positions (split : source.instrs = earlier ++ blocks.flatMap IR.Block.instrs)
    (emits : EmitsBlocks env locals [] blocks codes)
    (among : ∀ code ∈ codes, code.insts ⊆ within) (here : holds earlier locals) :
    List.Forall₂ (MadeFrom env source holds []) blocks codes := by
  induction blocks generalizing earlier locals codes with
  | nil =>
      cases emits
      exact .nil
  | cons block blocks ih =>
      obtain ⟨code, rest, last, rfl, made, later, next⟩ :=
        emits.first keeps begins split among here
      exact .cons made (ih (by simpa using split) later
        (fun code member => among code (List.mem_cons_of_mem _ member)) next)

end Blocks

/-- The slots of a function are made in its code. -/
theorem EmitsFunction.allocas_subset {module : IR.Module} {wraps : Bool} {code : Function}
    (emits : EmitsFunction module wraps source code) :
    allocas source ⊆ code.blocks.flatMap Block.insts := by
  have blocks := emits.blocks
  cases isBlocks : source.blocks with
  | nil =>
      have none_ : allocas source = [] := by simp [allocas, slots, IR.Function.instrs, isBlocks]
      simp [none_]
  | cons =>
      rw [isBlocks] at blocks
      cases isCode : code.blocks with
      | nil =>
          rw [isCode] at blocks
          cases blocks
      | cons =>
          rw [isCode] at blocks
          cases blocks
          rw [List.flatMap_cons]
          exact fun inst member => List.mem_append_left _ (List.mem_append_left _ member)

/-- What is kept from instruction to instruction and holds at first holds at every block. -/
theorem EmitsFunction.made {module : IR.Module} {wraps : Bool} {code : Function}
    (emits : EmitsFunction module wraps source code)
    (keeps : Keeps ⟨module, wraps, source⟩ source (code.blocks.flatMap Block.insts) holds)
    (begins : ∀ earlier locals block, holds earlier locals →
      holds earlier (locals.beginBlock block))
    (start : holds [] (.start source)) :
    ∀ block ∈ code.blocks, ∃ origin ∈ source.blocks, ∃ first ⊆ allocas source,
      MadeFrom ⟨module, wraps, source⟩ source holds first origin block := by
  have blocks := emits.blocks
  have among : ∀ block ∈ code.blocks, block.insts ⊆ code.blocks.flatMap Block.insts :=
    fun block member inst within => List.mem_flatMap.mpr ⟨block, member, within⟩
  cases isBlocks : source.blocks with
  | nil =>
      rw [isBlocks] at blocks
      cases isCode : code.blocks with
      | nil => simp
      | cons =>
          rw [isCode] at blocks
          cases blocks
  | cons entry others =>
      rw [isBlocks] at blocks
      have split : source.instrs = [] ++ (entry :: others).flatMap IR.Block.instrs := by
        rw [List.nil_append, IR.Function.instrs, isBlocks]
      obtain ⟨first, rest, last, isCode, made, later, next⟩ :=
        blocks.first keeps begins split among start
      have positions := later.positions keeps begins (by simpa using split)
        (fun block member => among block (isCode ▸ List.mem_cons_of_mem _ member)) next
      intro block member
      rw [isCode] at member
      rcases List.mem_cons.mp member with rfl | isLater
      · exact ⟨entry, List.mem_cons_self, _, List.Subset.refl _, made⟩
      · obtain ⟨origin, own, madeLater⟩ := exists_of_forall₂ positions isLater
        exact ⟨origin, List.mem_cons_of_mem _ own, [], List.nil_subset _, madeLater⟩

end Positions

end ScriptCompiler.LLVM
