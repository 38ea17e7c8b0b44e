import ScriptCompiler.Proofs.Lowering.Course
import ScriptCompiler.Proofs.Syntax.Written

/-!
# The course of lowering expressions

Lowering an expression from an open block is a course that ends in an open block and leaves the
meaning of all names alone; unless the expression has no value, what it yields can be read there.
-/

namespace ScriptCompiler.Lowering

open IR Build

variable {signature? : Bytes → Option Signature} {context : Nat} {before middle after : Draft}
  {last : State} {value : Value}

/-- A value that can be read at the end of the current block. -/
structure Draft.Usable (signature? : Bytes → Option Signature) (draft : Draft) (value : Value) :
    Prop where
  /-- The value has its type. -/
  typed : value.HasType draft.state.function (draft.state.interface signature?) value.type
  /-- It has been supplied. -/
  demands : ∀ supply ∈ value.demands, supply ∈ draft.held
  /-- Its type has values. -/
  isValue : value.type.IsValue

/-- What lowering an expression comes to. -/
structure Evaluates (signature? : Bytes → Option Signature) (context : Nat) (before after : Draft)
    (value : Value) : Prop where
  /-- It is a course. -/
  course : Course signature? context before after
  /-- It ends in an open block. -/
  takes : after.state.isOpen = true
  /-- It changes the meaning of no name. -/
  meanings : after.state.meaning? = before.state.meaning?
  /-- What it yields can be read, if it has a value. -/
  usable : value.type ≠ .void → after.Usable signature? value

theorem Draft.Usable.mono (usable : before.Usable signature? value)
    (course : Course signature? context before after) (ready : before.Ready signature? context) :
    after.Usable signature? value where
  typed := usable.typed.mono (fun _ member => course.grows.params_eq ▸ member)
    (fun _ => course.grows.results_subset ready.sound.numbered)
      course.grows.strings_extend.length_le
  demands := fun supply asked => course.held_subset (usable.demands supply asked)
  isValue := usable.isValue

/-- The result of an instruction can be read behind it. -/
theorem Draft.usable_define (ready : before.Ready signature? context) {instr : Instr} {dest : Temp}
    (straight : instr.targets = []) (result : instr.result? = some (.temp dest))
    (supplies : instr.supplies = [.result dest.id]) (isValue : dest.type.IsValue) :
    Draft.Usable signature? ⟨before.state.define instr, before.known⟩ (.temp dest) := by
  rw [State.define_eq_put straight]
  refine ⟨⟨isValue, ?_, rfl⟩, ?_, isValue⟩
  · refine (State.results_put_perm instr 1 ready.sound.numbered ready.sound.owned).mem_iff.mpr ?_
    simp [result]
  · rw [Draft.held_put ready.sound.owned]
    intro supply asked
    obtain rfl := List.mem_singleton.mp asked
    exact .inr ⟨instr, List.mem_singleton_self _, by simp [supplies]⟩

theorem State.isOpen_define (owned : (before.state.function.block? before.state.current.id).isSome)
    {instr : Instr} (straight : instr.targets = []) (body : instr.isTerminator = false) :
    (before.state.define instr).isOpen = true := by
  rw [State.define_eq_put straight, State.isOpen_put owned, body]
  rfl

theorem State.isOpen_emit (owned : (before.state.function.block? before.state.current.id).isSome)
    {instr : Instr} (straight : instr.targets = []) :
    (before.state.emit instr).isOpen = !instr.isTerminator := by
  rw [State.emit_eq_put straight, State.isOpen_put owned]

namespace Evaluates

theorem ready (evaluates : Evaluates signature? context before after value) :
    after.Ready signature? context := evaluates.course.ready

theorem behind (course : Course signature? context before middle)
    (meanings : middle.state.meaning? = before.state.meaning?)
    (evaluates : Evaluates signature? context middle after value) :
    Evaluates signature? context before after value :=
  ⟨course.trans evaluates.course, evaluates.takes, evaluates.meanings.trans meanings,
    evaluates.usable⟩

/-- An instruction that computes a value from usable ones. -/
theorem define (course : Course signature? context before middle)
    (takes : middle.state.isOpen = true) (meanings : middle.state.meaning? = before.state.meaning?)
    {instr : Instr} {dest : Temp} (straight : instr.targets = [])
    (result : instr.result? = some (.temp dest)) (supplies : instr.supplies = [.result dest.id])
    (isNext : dest.id = middle.state.nextId) (body : instr.isTerminator = false)
    (noCall : instr.callee? = none)
    (typed : instr.Typed middle.state.function (middle.state.interface signature?))
    (demands : ∀ supply ∈ instr.demands, supply ∈ middle.held) (isValue : dest.type.IsValue)
    (plain : ∀ dest value, instr ≠ .copy dest value := by simp) :
    Evaluates signature? context before ⟨middle.state.define instr, middle.known⟩ (.temp dest) where
  course := course.define takes straight result (congrArg some isNext) typed demands
    (by simp [noCall]) plain
  takes := State.isOpen_define course.ready.sound.owned straight body
  meanings := (State.meaning?_congr rfl rfl).trans meanings
  usable := fun _ => Draft.usable_define course.ready straight result supplies isValue

theorem isValue (evaluates : Evaluates signature? context before after value)
    (notVoid : value.type ≠ .void) : value.type.IsValue :=
  (evaluates.usable notVoid).isValue

end Evaluates

section Operations

theorem binaryOpcode?_result {type : BasicType} {operator : TokenKind} {opcode : BinaryOpcode}
    (found : binaryOpcode? type operator = some opcode) :
    type.IsValue ∧ opcode.result? type = some (if opcode.isComparison then .bool else type) := by
  unfold binaryOpcode? at found
  split at found <;> cases found <;> exact ⟨⟨nofun, nofun⟩, rfl⟩

theorem unaryOpcode?_result {type : BasicType} {operator : TokenKind} {opcode : UnaryOpcode}
    (found : unaryOpcode? type operator = some opcode) :
    type.IsValue ∧ opcode.result? type = some type := by
  unfold unaryOpcode? at found
  split at found <;> cases found <;> exact ⟨⟨nofun, nofun⟩, rfl⟩

theorem isValue_of_printFormat? {type : BasicType} {format : Bytes}
    (found : printFormat? type = some format) : type.IsValue := by
  constructor
  · rintro rfl
    cases found
  · rintro rfl
    cases found

theorem mem_addText {state : State} {content text : Bytes} :
    text ∈ (state.addText content).strings ↔ text ∈ state.strings ∨ text = content := by
  simp only [State.addText, internString]
  split
  · rename_i known
    refine ⟨.inl, fun either => either.elim id ?_⟩
    rintro rfl
    exact List.contains_iff_mem.mp known
  · simp

theorem textIndex_eq {state : State} {content : Bytes} :
    state.textIndex content = (state.addText content).strings.idxOf content := by
  simp only [State.textIndex, State.addText, internString]
  split
  · rfl
  · rename_i absent
    rw [List.idxOf_append_of_notMem fun member => absent (List.contains_iff_mem.mpr member)]
    simp

/-- A constant keeps its place as the table grows. -/
theorem textIndex_of_prefix {state : State} {content : Bytes} {texts : List Bytes}
    (fits : (state.addText content).strings <+: texts) :
    content ∈ texts ∧ state.textIndex content = texts.idxOf content := by
  have member : content ∈ (state.addText content).strings := mem_addText.mpr (.inr rfl)
  obtain ⟨more, rfl⟩ := fits
  exact ⟨List.mem_append_left _ member, textIndex_eq.trans (List.idxOf_append_of_mem member).symm⟩

theorem textIndex_lt (state : State) (content : Bytes) :
    state.textIndex content < (state.addText content).strings.length :=
  textIndex_eq ▸ List.idxOf_lt_length_of_mem (mem_addText.mpr (.inr rfl))

theorem formatter_mem_addFormatter (sound : before.Sound signature?) :
    formatter ∈ before.state.addFormatter.externals := by
  simp only [State.addFormatter, declareExternal]
  split
  · rename_i known
    obtain ⟨external, member, -⟩ := List.any_eq_true.mp known
    exact sound.declared external member ▸ member
  · simp

end Operations

theorem Course.store (course : Course signature? context before middle)
    (takes : middle.state.isOpen = true) {place : Place}
    (isResult : Value.slot place ∈ middle.state.function.results)
    (slot : Supply.slot place.id ∈ middle.held) (usable : middle.Usable signature? value)
    (types : value.type = place.type) :
    Course signature? context before
      ⟨middle.state.emit (.store (.slot place) value), middle.known⟩ := by
  refine course.emit takes rfl rfl ⟨place, rfl, isResult, types ▸ usable.typed⟩ ?_ nofun
  intro supply asked
  rcases List.mem_cons.mp asked with rfl | read
  · exact slot
  · exact usable.demands supply read

/-- The state with a new slot that holds a value. -/
def State.keep (state : State) (place : Place) (value : Value) : State :=
  (state.define (.alloca place)).emit (.store (.slot place) value)

/-- A new slot is made and filled, in an open block if moves are to be tidy. -/
theorem Draft.Sound.keep {tidy : Prop} (sound : before.Sound signature?)
    (takes : tidy → before.state.isOpen = true) (place : Place)
    (isNext : place.id = before.state.nextId) (usable : before.Usable signature? value)
    (types : value.type = place.type) :
    Moves signature? tidy before ⟨before.state.keep place value, before.known⟩ ∧
      (before.state.keep place value).isOpen = true ∧
      Draft.Filled ⟨before.state.keep place value, before.known⟩ place ∧
      before.held ⊆ Draft.held ⟨before.state.keep place value, before.known⟩ := by
  have isValue : place.type.IsValue := types ▸ usable.isValue
  have opened : (before.state.define (.alloca place)).isOpen = true :=
    State.isOpen_define sound.owned rfl rfl
  have alloca :
    Move signature? tidy before ⟨before.state.define (.alloca place), before.known⟩ := by
    rw [State.define_eq_put rfl]
    refine .put (.alloca place) 1 takes isValue (by simp [Instr.demands, Instr.operands])
      (by simp [Instr.targets]) (fun result isResult => ?_) (by simp [Instr.callee?])
    obtain rfl : Value.slot place = result := Option.some.inj isResult
    exact ⟨congrArg some isNext, rfl⟩
  have made := sound.move alloca
  have isResult : Value.slot place ∈ (before.state.define (.alloca place)).function.results := by
    rw [State.define_eq_put rfl]
    exact (State.results_put_perm _ 1 sound.numbered sound.owned).mem_iff.mpr (by
      simp [Instr.result?])
  have held : Draft.held ⟨before.state.define (.alloca place), before.known⟩ =
      supplied before.held [.alloca place] := by
    rw [State.define_eq_put rfl, Draft.held_put sound.owned]
  have slot : Supply.slot place.id ∈
      Draft.held ⟨before.state.define (.alloca place), before.known⟩ := by
    rw [held]
    exact .inr ⟨_, List.mem_singleton_self _, List.mem_singleton_self _⟩
  have typed :
    (Instr.store (.slot place) value).Typed (before.state.define (.alloca place)).function
      ((before.state.define (.alloca place)).interface signature?) := by
    refine ⟨place, rfl, isResult, types ▸ usable.typed.mono (fun _ member => ?_) (fun _ => ?_) ?_⟩
    · exact alloca.grows.params_eq ▸ member
    · exact alloca.grows.results_subset sound.numbered
    · exact alloca.grows.strings_extend.length_le
  have store : Move signature? tidy ⟨before.state.define (.alloca place), before.known⟩
      ⟨before.state.keep place value, before.known⟩ := by
    rw [State.keep, State.emit_eq_put rfl]
    refine .put (.store (.slot place) value) 0 (fun _ => opened) typed (fun supply asked => ?_)
      (by simp [Instr.targets]) (by simp [Instr.result?]) (by simp [Instr.callee?])
    rcases List.mem_cons.mp asked with rfl | read
    · exact slot
    · exact held ▸ subset_supplied _ (usable.demands supply read)
  have heldKept : Draft.held ⟨before.state.keep place value, before.known⟩ =
      supplied (Draft.held ⟨before.state.define (.alloca place), before.known⟩)
        [.store (.slot place) value] := by
    rw [State.keep, State.emit_eq_put rfl, Draft.held_put made.owned]
  refine ⟨(Relation.ReflTransGen.single alloca).tail store, State.isOpen_emit made.owned rfl,
    ⟨store.grows.results_subset made.numbered isResult, isValue, ?_, ?_⟩, ?_⟩
  · exact heldKept ▸ subset_supplied _ slot
  · rw [heldKept]
    exact .inr ⟨_, List.mem_singleton_self _, List.mem_singleton_self _⟩
  · rw [heldKept, held]
    exact (subset_supplied _).trans (subset_supplied _)

theorem State.code_keep {state : State}
    (owned : (state.function.block? state.current.id).isSome) (place : Place) (value : Value) :
    (state.keep place value).function.code state.current.id =
      state.function.code state.current.id ++
        [Instr.alloca place, .store (.slot place) value] := by
  have first : (state.put (.alloca place) 1).function.code state.current.id =
      state.function.code state.current.id ++ [Instr.alloca place] := State.code_put_self owned
  have stays : (state.put (.alloca place) 1).current = state.current := by
    simp [State.put, State.emit]
  have there : ((state.put (.alloca place) 1).function.block?
      (state.put (.alloca place) 1).current.id).isSome := by
    obtain ⟨block, found⟩ := Option.isSome_iff_exists.mp owned
    obtain ⟨_, _, put, _⟩ := State.block?_put (.alloca place) 1 found
    simp [stays, put]
  rw [State.keep, State.emit_eq_put rfl, State.define_eq_put rfl, ← stays,
    State.code_put_self there, stays, first, List.append_assoc]
  rfl

theorem State.code_keep_of_ne {state : State} {id : Nat} (differ : id ≠ state.current.id)
    (place : Place) (value : Value) :
    (state.keep place value).function.code id = state.function.code id := by
  rw [State.keep, State.emit_eq_put rfl, State.define_eq_put rfl]
  refine (State.code_put_of_ne ?_).trans (State.code_put_of_ne differ)
  simpa [State.put, State.emit] using differ

/-- A course is continued by a new slot. -/
theorem Course.keep (course : Course signature? context before middle)
    (takes : middle.state.isOpen = true) (place : Place) (isNext : place.id = middle.state.nextId)
    (usable : middle.Usable signature? value) (types : value.type = place.type) :
    Course signature? context before ⟨middle.state.keep place value, middle.known⟩ ∧
      (middle.state.keep place value).isOpen = true ∧
      Draft.Filled ⟨middle.state.keep place value, middle.known⟩ place := by
  obtain ⟨moves, opened, filled, held⟩ :=
    course.ready.sound.keep (fun _ : True => takes) place isNext usable types
  have same : (middle.state.keep place value).meaning? = middle.state.meaning? :=
    State.meaning?_congr rfl rfl
  refine ⟨course.trans
    { moves, held_subset := held, known_eq := fun _ _ => rfl, nextContext_le := Nat.le_refl _
      outer := fun other _ => congrFun same other
      untouched := fun id _ differ => State.code_keep_of_ne differ place value
      current := .inl rfl, ready := ?_ }, opened, filled⟩
  refine ⟨course.ready.sound.moves moves, course.ready.wellScoped.congr rfl rfl,
    course.ready.inside,
    ?_, ?_⟩
  · intro name other means
    rw [same] at means
    exact (course.ready.filled name other means).mono
      (fun _ => moves.grows.results_subset course.ready.sound.numbered) held
  · intro name signature means
    rw [same] at means
    exact course.ready.callable name signature means

namespace Evaluates

theorem literal (ready : before.Ready signature? context) (takes : before.state.isOpen = true)
    {literal : Literal} (fits : literal.Fits) :
    Evaluates signature? context before ⟨before.state.addLiteral literal, before.known⟩
      (literalValue before.state literal) := by
  have course := Course.refl ready
  cases literal with
  | int value =>
      exact ⟨course.skip, takes, State.meaning?_congr rfl rfl,
        fun _ => ⟨⟨⟨nofun, nofun⟩, fits, rfl⟩, nofun, nofun, nofun⟩⟩
  | float value =>
      exact ⟨course.skip, takes, State.meaning?_congr rfl rfl,
        fun _ => ⟨⟨⟨nofun, nofun⟩, trivial, rfl⟩, nofun, nofun, nofun⟩⟩
  | bool value =>
      exact ⟨course.skip, takes, State.meaning?_congr rfl rfl,
        fun _ => ⟨⟨⟨nofun, nofun⟩, trivial, rfl⟩, nofun, nofun, nofun⟩⟩
  | string content =>
      exact ⟨course.addText content, takes, State.meaning?_congr rfl rfl,
        fun _ => ⟨⟨⟨nofun, nofun⟩, textIndex_lt before.state content, rfl⟩, nofun, nofun, nofun⟩⟩

section Instructions

variable (course : Course signature? context before middle) (takes : middle.state.isOpen = true)
  (meanings : middle.state.meaning? = before.state.meaning?)
include course takes meanings

theorem load {place : Place} (filled : middle.Filled place) :
    Evaluates signature? context before ⟨middle.state.load place, middle.known⟩
      (.temp ⟨middle.state.nextId, place.type⟩) :=
  define course takes meanings rfl rfl rfl rfl rfl rfl ⟨place, rfl, filled.isResult, rfl⟩
    (by simpa [Instr.demands] using filled.content) filled.isValue

theorem binary {operator : TokenKind} {lexeme : Bytes} {position : Position} {left right : Value}
    (first : left.type ≠ .void → middle.Usable signature? left)
    (second : right.type ≠ .void → middle.Usable signature? right)
    (run : applyBinary context operator lexeme position left right middle.state =
      .ok (value, last)) :
    Evaluates signature? context before ⟨last, middle.known⟩ value := by
  obtain ⟨types, opcode, found, dest, rfl, rfl, rfl⟩ := applyBinary_ok run
  obtain ⟨isValue, result⟩ := binaryOpcode?_result found
  have leftUsable := first isValue.1
  have rightUsable := second (types ▸ isValue.1)
  refine define course takes meanings rfl rfl rfl rfl rfl rfl
    ⟨left.type, leftUsable.typed, types ▸ rightUsable.typed, result⟩ ?_ ?_
  · intro supply asked
    simp only [Instr.demands, Instr.operands, List.flatMap_cons, List.flatMap_nil, List.append_nil,
      List.mem_append] at asked
    exact asked.elim (leftUsable.demands supply) (rightUsable.demands supply)
  · dsimp only
    split
    · exact ⟨by decide, by decide⟩
    · exact isValue

theorem unary {operator : Token} {operand : Value}
    (usable : operand.type ≠ .void → middle.Usable signature? operand)
    (run : applyUnary context operator operand middle.state = .ok (value, last)) :
    Evaluates signature? context before ⟨last, middle.known⟩ value := by
  obtain ⟨opcode, found, dest, rfl, rfl, rfl⟩ := applyUnary_ok run
  obtain ⟨isValue, result⟩ := unaryOpcode?_result found
  have operandUsable := usable isValue.1
  refine define course takes meanings rfl rfl rfl rfl rfl rfl
    ⟨operand.type, operandUsable.typed, result⟩ ?_ isValue
  simpa [Instr.demands, Instr.operands] using operandUsable.demands

theorem invoke {name : Bytes} {signature : Signature} {arguments : List Value}
    (known : signature? name = some signature) (valid : signature.result ≠ .invalid)
    (types : arguments.map Value.type = signature.params)
    (usable : ∀ argument ∈ arguments, middle.Usable signature? argument) :
    Evaluates signature? context before
      ⟨middle.state.invoke name signature.result arguments, middle.known⟩
      (.temp ⟨middle.state.nextId, signature.result⟩) := by
  have typed : ∀ dest : Option Temp,
      (∀ temp ∈ dest, temp.type = signature.result ∧ signature.result.IsValue) →
      (signature.result ≠ .void → dest.isSome) →
      (Instr.call dest ⟨.defined, name⟩ arguments).Typed middle.state.function
        (middle.state.interface signature?) := by
    intro dest destTyped kept
    refine ⟨signature, known, ?_, destTyped, kept⟩
    rw [← types, List.forall₂_map_right_iff, List.forall₂_same]
    exact fun argument member => (usable argument member).typed
  have demands : ∀ dest : Option Temp,
      ∀ supply ∈ (Instr.call dest ⟨.defined, name⟩ arguments).demands, supply ∈ middle.held := by
    intro dest supply asked
    obtain ⟨argument, member, reads⟩ := List.mem_flatMap.mp asked
    exact (usable argument member).demands supply reads
  by_cases nothing : signature.result = .void
  · simp only [State.invoke, nothing, beq_self_eq_true, if_true]
    exact ⟨(course.emit takes rfl rfl (typed none nofun (absurd nothing)) (demands none)
      (by simp [Instr.callee?])).skip,
      State.isOpen_emit course.ready.sound.owned rfl, (State.meaning?_congr rfl rfl).trans meanings,
      fun notVoid => absurd rfl notVoid⟩
  · have isValue : signature.result.IsValue := ⟨nothing, valid⟩
    simp only [State.invoke, beq_iff_eq, nothing, if_false]
    refine ⟨course.define takes rfl rfl rfl (typed (some _) ?_ fun _ => rfl) (demands _)
      (by simp [Instr.callee?]),
      State.isOpen_define course.ready.sound.owned rfl rfl,
      (State.meaning?_congr rfl rfl).trans meanings,
      fun _ => Draft.usable_define course.ready rfl rfl rfl isValue⟩
    rintro _ ⟨⟩
    exact ⟨rfl, isValue⟩

theorem print {printed : Value} {format : Bytes} (found : printFormat? printed.type = some format)
    (usable : printed.type ≠ .void → middle.Usable signature? printed) :
    Evaluates signature? context before ⟨middle.state.print format printed, middle.known⟩
      (.temp ⟨middle.state.nextId, .void⟩) := by
  have declared := (Course.refl course.ready).addFormatter
  have texted := declared.addText format
  have printedUsable := (usable (isValue_of_printFormat? found).1).mono texted course.ready
  let ready := middle.state.addFormatter
  let output : Instr :=
    .call none ⟨.external, formatter.name⟩ [.string (ready.textIndex format), printed]
  have typed : output.Typed (ready.addText format).function
      ((ready.addText format).interface signature?) :=
    ⟨rfl, rfl, _, printed, _, rfl, ⟨⟨nofun, nofun⟩, textIndex_lt ready format, rfl⟩,
      printedUsable.typed⟩
  have demands : ∀ supply ∈ output.demands, supply ∈ middle.held := by
    intro supply asked
    refine printedUsable.demands supply ?_
    simpa [output, Instr.demands, Instr.operands, Value.demands] using asked
  have emitted := (course.trans texted).emit takes rfl rfl typed demands
    fun _ _ _ => formatter_mem_addFormatter course.ready.sound
  exact ⟨emitted.skip, State.isOpen_emit texted.ready.sound.owned rfl,
    (State.meaning?_congr rfl rfl).trans meanings, fun notVoid => absurd rfl notVoid⟩

end Instructions

theorem store (evaluates : Evaluates signature? context before after value) {place : Place}
    (filled : after.Filled place) (types : value.type = place.type) :
    Evaluates signature? context before
      ⟨after.state.emit (.store (.slot place) value), after.known⟩ value := by
  have usable := evaluates.usable (types ▸ filled.isValue.1)
  have stored :=
    (Course.refl evaluates.ready).store evaluates.takes filled.isResult filled.slot usable
    types
  exact ⟨evaluates.course.trans stored, State.isOpen_emit evaluates.ready.sound.owned rfl,
    (State.meaning?_congr rfl rfl).trans evaluates.meanings,
    fun _ => usable.mono stored evaluates.ready⟩

end Evaluates

section Logical

variable (operator : Token) (first : Value)

/-- The slot of a logical operator. -/
def State.logicalSlot (state : State) (operator : Token) : Place :=
  ⟨state.nextId, (logicalName operator).2, .bool⟩

/-- The draft with the slot of a logical operator, which holds the left operand. -/
def Draft.keepLeft (draft : Draft) (operator : Token) (first : Value) : Draft :=
  ⟨draft.state.keep (draft.state.logicalSlot operator) first, draft.known⟩

/-- The draft with the blocks of a logical operator. -/
def Draft.makeLogical (draft : Draft) (operator : Token) : Draft :=
  (draft.addBlock ((logicalName operator).2 ++ ".rhs")).addBlock
    ((logicalName operator).2 ++ ".end")

/-- The draft in which the right operand of a logical operator begins. -/
def Draft.beginLogical (draft : Draft) (operator : Token) (first : Value) : Draft :=
  ⟨draft.state.beginLogical operator first,
    ((draft.keepLeft operator first).makeLogical operator).known⟩

theorem logical_listed :
    (logicalName operator).2 ++ ".rhs" ∈ blockLabels ∧
      (logicalName operator).2 ++ ".end" ∈ blockLabels := by
  unfold logicalName
  split <;> decide

/-- The end of a block at which a logical operator decides whether its right operand is needed. -/
def State.branchLogical (state : State) (conjunction : Bool) (first : Value)
    (rest done : BlockName) : State :=
  if conjunction then state.branch first rest done else state.branch first done rest

variable {operator first} in
theorem Course.branchLogical (course : Course signature? context before middle)
    (takes : middle.state.isOpen = true) (truth : first.type = .bool)
    (usable : middle.Usable signature? first) {rest done : BlockName} (toRest : middle.Reaches rest)
    (toDone : middle.Reaches done) (conjunction : Bool) :
    Course signature? context before
      ⟨middle.state.branchLogical conjunction first rest done, middle.known⟩ := by
  cases conjunction with
  | true => exact course.branch takes (truth ▸ usable.typed) usable.demands toRest toDone
  | false => exact course.branch takes (truth ▸ usable.typed) usable.demands toDone toRest

theorem State.meaning?_branchLogical (state : State) (conjunction : Bool) (first : Value)
    (rest done : BlockName) :
    (state.branchLogical conjunction first rest done).meaning? = state.meaning? := by
  cases conjunction <;> exact State.meaning?_congr rfl rfl

/-- The block of the right operand of a logical operator. -/
def State.logicalRest (state : State) (operator : Token) : BlockName :=
  state.blockName ((logicalName operator).2 ++ ".rhs")

/-- The block behind a logical operator. -/
def State.logicalDone (state : State) (operator : Token) : BlockName :=
  (state.addBlock ((logicalName operator).2 ++ ".rhs")).blockName
    ((logicalName operator).2 ++ ".end")

theorem Prepares.makeLogical (ready : before.Ready signature? context) :
    Prepares signature? context before (before.makeLogical operator) ∧
      before.Fresh (before.makeLogical operator) (before.state.logicalRest operator) ∧
      before.Fresh (before.makeLogical operator) (before.state.logicalDone operator) := by
  obtain ⟨restListed, doneListed⟩ := logical_listed operator
  have restMade := (Prepares.refl ready).block restListed
  exact ⟨restMade.block doneListed, restMade.stays ((Prepares.refl ready).fresh _) doneListed,
    restMade.fresh ((logicalName operator).2 ++ ".end")⟩

/-- The left operand of a logical operator decides which of the two blocks follows. -/
theorem Course.forkLogical (ready : before.Ready signature? context)
    (takes : before.state.isOpen = true) (truth : first.type = .bool)
    (usable : before.Usable signature? first) :
    Course signature? context (before.makeLogical operator)
      ⟨(before.makeLogical operator).state.branchLogical (logicalName operator).1 first
        (before.state.logicalRest operator) (before.state.logicalDone operator),
        (before.makeLogical operator).known⟩ := by
  obtain ⟨made, rest, done⟩ := Prepares.makeLogical operator ready
  exact (Course.refl made.course.ready).branchLogical (made.isOpen_eq.trans takes) truth
    (usable.mono made.course ready) (rest.reaches ready.sound made.course.held_subset)
    (done.reaches ready.sound made.course.held_subset) (logicalName operator).1

/-- The right operand of a logical operator begins in a new block, with another one behind it. -/
theorem Course.beginLogical (ready : (before.keepLeft operator first).Ready signature? context)
    (takes : (before.keepLeft operator first).state.isOpen = true) (truth : first.type = .bool)
    (usable : (before.keepLeft operator first).Usable signature? first) :
    Course signature? context (before.keepLeft operator first)
        (before.beginLogical operator first) ∧
      (before.beginLogical operator first).state.meaning? =
        (before.keepLeft operator first).state.meaning? ∧
      (before.keepLeft operator first).Fresh (before.beginLogical operator first)
        (before.state.logicalEnd operator first) ∧
      (before.beginLogical operator first).state.isOpen = true := by
  obtain ⟨made, rest, done⟩ := Prepares.makeLogical operator ready
  have leaves := Course.forkLogical operator first ready takes truth usable
  have meanings := State.meaning?_branchLogical
    ((before.keepLeft operator first).makeLogical operator).state (logicalName operator).1 first
    ((before.keepLeft operator first).state.logicalRest operator)
    ((before.keepLeft operator first).state.logicalDone operator)
  exact ⟨made.enter rest ready leaves meanings, meanings.trans made.meanings,
    (done.course leaves).enter (Nat.succ_ne_self _), (rest.course leaves).isOpen leaves.ready.sound⟩

omit operator first in
/-- Behind the right operand of a logical operator its value is stored, and the block behind
follows, which is still empty. -/
theorem Evaluates.leaveLogical {second : Value} {entered : Draft}
    (ready : before.Ready signature? context) {place : Place} (filled : before.Filled place)
    (isBool : place.type = .bool) {done : BlockName} (fresh : before.Fresh entered done)
    (begins : Course signature? context before entered)
    (evaluates : Evaluates signature? context entered middle second)
    (truth : second.type = .bool) :
    Course signature? context middle
        ⟨middle.state.emit (.store (.slot place) second), middle.known⟩ ∧
      Course signature? context ⟨middle.state.emit (.store (.slot place) second), middle.known⟩
        ⟨(middle.state.emit (.store (.slot place) second)).jump done, middle.known⟩ ∧
      before.Fresh ⟨(middle.state.emit (.store (.slot place) second)).jump done, middle.known⟩
        done := by
  have course := begins.trans evaluates.course
  have filled := filled.mono (fun _ => course.grows.results_subset ready.sound.numbered)
    course.held_subset
  have stored := (Course.refl evaluates.ready).store evaluates.takes filled.isResult filled.slot
    (evaluates.usable (by simp [truth])) (truth.trans isBool.symm)
  have there := (fresh.course evaluates.course).course stored
  have jumped := (Course.refl stored.ready).jump (State.isOpen_emit evaluates.ready.sound.owned rfl)
    (there.reaches ready.sound (course.trans stored).held_subset)
  exact ⟨stored, jumped, there.course jumped⟩

omit operator first in
/-- Behind a logical operator, its slot holds the result. -/
theorem Evaluates.endLogical {second : Value} {entered : Draft}
    (ready : before.Ready signature? context) {place : Place} (filled : before.Filled place)
    (isBool : place.type = .bool) {done : BlockName} (fresh : before.Fresh entered done)
    (begins : Course signature? context before entered)
    (meanings : entered.state.meaning? = before.state.meaning?)
    (evaluates : Evaluates signature? context entered middle second)
    (truth : second.type = .bool) :
    Evaluates signature? context before
      ⟨(((middle.state.emit (.store (.slot place) second)).jump done).enter done).load place,
        middle.known⟩
      (.temp ⟨(((middle.state.emit (.store (.slot place) second)).jump done).enter done).nextId,
        place.type⟩) := by
  obtain ⟨stored, jumped, there⟩ := evaluates.leaveLogical ready filled isBool fresh begins truth
  have course := ((begins.trans evaluates.course).trans stored).trans jumped
  have same := evaluates.meanings.trans meanings
  have entered := course.enter there ready
    (congrFun ((State.meaning?_congr rfl rfl).trans same) context)
  exact Evaluates.load entered (there.isOpen jumped.ready.sound)
    ((State.meaning?_congr rfl rfl).trans same)
    (filled.mono (fun _ => entered.grows.results_subset ready.sound.numbered) entered.held_subset)

end Logical

/-- What lowering the arguments of a call comes to. -/
structure EvaluatesAll (signature? : Bytes → Option Signature) (context : Nat)
    (before after : Draft) (values : List Value) : Prop where
  /-- It is a course. -/
  course : Course signature? context before after
  /-- It ends in an open block. -/
  takes : after.state.isOpen = true
  /-- It changes the meaning of no name. -/
  meanings : after.state.meaning? = before.state.meaning?
  /-- All values can be read. -/
  usable : ∀ value ∈ values, after.Usable signature? value

/-- The place of a variable is filled. -/
theorem Draft.Ready.filled_of_find? (ready : before.Ready signature? context) {name : Bytes}
    {found : Symbol} {slot : Place} (finds : before.state.table.find? context name = some found)
    (kind : found.kind ≠ .function) (held : before.state.slot? found = some slot) :
    before.Filled slot := by
  obtain ⟨place, there, means⟩ := ready.wellScoped.variable_of_find? finds kind
  obtain rfl := Option.some.inj (there.symm.trans held)
  exact ready.filled name place means

section Recursion

/-- Wherever an expression is lowered, a course yields its value. -/
def Evaluating (signature? : Bytes → Option Signature) (expression : Expr) : Prop :=
  ∀ {context : Nat} {before : Draft} {last : State} {value : Value},
    before.Ready signature? context → before.state.isOpen = true →
    lowerExpr context expression before.state = .ok (value, last) →
    ∃ after : Draft, after.state = last ∧ Evaluates signature? context before after value

theorem literal_evaluates {token : Token} {content : Literal} (fits : content.Fits) :
    Evaluating signature? (.literal token content) := by
  intro context before last value ready takes run
  rw [lowerExpr] at run
  obtain ⟨rfl, rfl⟩ := Prod.mk.inj (lowerLiteral_ok.mp run)
  exact ⟨_, rfl, .literal ready takes fits⟩

theorem variable_evaluates (identifier : Identifier) :
    Evaluating signature? (.variable identifier) := by
  intro context before last value ready takes run
  obtain ⟨found, slot, finds, kind, held, rfl, rfl⟩ := lowerExpr_variable_ok run
  have used := (Course.refl ready).use found identifier.name
  have filled := (ready.filled_of_find? finds kind held).mono
    (fun _ => used.grows.results_subset ready.sound.numbered) used.held_subset
  exact ⟨_, rfl, .load used takes (ready.wellScoped.meaning?_use found identifier.name) filled⟩

theorem group_evaluates {opening closing : Token} {inner : Expr}
    (evaluating : Evaluating signature? inner) :
    Evaluating signature? (.group opening inner closing) := by
  intro context before last value ready takes run
  rw [lowerExpr] at run
  exact evaluating ready takes run

section Operators

variable {operator : Token} {left right operand : Expr}

theorem binary_evaluates (evaluating : Evaluating signature? left)
    (evaluating' : Evaluating signature? right) :
    Evaluating signature? (.binary left operator right) := by
  intro context before last value ready takes run
  obtain ⟨first, _, second, _, leftRun, rightRun, applied⟩ := lowerExpr_binary_ok run
  obtain ⟨middle, rfl, leftDone⟩ := evaluating ready takes leftRun
  obtain ⟨after, rfl, rightDone⟩ := evaluating' leftDone.ready leftDone.takes rightRun
  have both := rightDone.behind leftDone.course leftDone.meanings
  exact ⟨_, rfl, .binary both.course both.takes both.meanings
    (fun notVoid => (leftDone.usable notVoid).mono rightDone.course leftDone.ready)
    rightDone.usable applied⟩

theorem logical_evaluates (evaluating : Evaluating signature? left)
    (evaluating' : Evaluating signature? right) :
    Evaluating signature? (.logical left operator right) := by
  intro context before last value ready takes run
  obtain ⟨first, _, leftRun, truth, logical⟩ := lowerExpr_logical_ok run
  obtain ⟨middle, rfl, leftDone⟩ := evaluating ready takes leftRun
  obtain ⟨slot, second, _, rfl, rightRun, secondTruth, _, rfl, rfl, rfl⟩ := lowerLogical_ok logical
  have usable := leftDone.usable (by simp [truth])
  obtain ⟨kept, opened, filled⟩ := (Course.refl leftDone.ready).keep leftDone.takes
    (middle.state.logicalSlot operator) rfl usable truth
  obtain ⟨begins, meanings, behind, enters⟩ := Course.beginLogical operator first kept.ready opened
    truth (usable.mono kept leftDone.ready)
  obtain ⟨after, rfl, rightDone⟩ := evaluating' begins.ready enters rightRun
  have ends := rightDone.endLogical kept.ready filled rfl behind begins meanings secondTruth
  have keeps : (middle.keepLeft operator first).state.meaning? = before.state.meaning? :=
    (State.meaning?_congr rfl rfl).trans leftDone.meanings
  have total := ends.behind (leftDone.course.trans kept) keeps
  refine ⟨_, ?_, total⟩
  rfl

theorem unary_evaluates (evaluating : Evaluating signature? operand) :
    Evaluating signature? (.unary operator operand) := by
  intro context before last value ready takes run
  obtain ⟨read, _, operandRun, applied⟩ := lowerExpr_unary_ok run
  obtain ⟨middle, rfl, operandDone⟩ := evaluating ready takes operandRun
  exact ⟨_, rfl, .unary operandDone.course operandDone.takes operandDone.meanings
    operandDone.usable applied⟩

end Operators

theorem assignment_evaluates {target : Identifier} {operator : Token} {expression : Expr}
    (evaluating : Evaluating signature? expression) :
    Evaluating signature? (.assignment target operator expression) := by
  intro context before last value ready takes run
  obtain ⟨found, slot, assigned, _, finds, kind, held, valueRun, stored⟩ :=
    lowerExpr_assignment_ok run
  have used := (Course.refl ready).use found target.name
  have same := ready.wellScoped.meaning?_use found target.name
  obtain ⟨middle, rfl, valueDone⟩ := evaluating used.ready takes valueRun
  have done := valueDone.behind used same
  have filled := (ready.filled_of_find? finds kind held).mono
    (fun _ => done.course.grows.results_subset ready.sound.numbered) done.course.held_subset
  rcases stored with ⟨-, types, rfl, rfl⟩ | ⟨arithmetic, _, -, applied, types, rfl⟩
  · exact ⟨_, rfl, done.store filled types⟩
  · have loaded := Evaluates.load (.refl done.ready) done.takes rfl filled
    have combined := Evaluates.binary loaded.course loaded.takes loaded.meanings loaded.usable
      (fun notVoid => (done.usable notVoid).mono loaded.course done.ready) applied
    have refilled := filled.mono
      (fun _ => combined.course.grows.results_subset done.ready.sound.numbered)
      combined.course.held_subset
    exact ⟨_, rfl, (combined.behind done.course done.meanings).store refilled types⟩

section Calls

variable {arguments : List Expr}
    (evaluating : ∀ argument ∈ arguments, Evaluating signature? argument)
include evaluating

/-- Arguments are lowered one behind the other. -/
theorem arguments_evaluate {name : Bytes} {number : Nat} {types : List BasicType}
    {values : List Value} (ready : before.Ready signature? context)
    (takes : before.state.isOpen = true) (count : arguments.length = types.length)
    (run : lowerArguments context name number types arguments before.state = .ok (values, last)) :
    ∃ after : Draft, after.state = last ∧ EvaluatesAll signature? context before after values ∧
      values.map Value.type = types := by
  induction arguments generalizing number types before values with
  | nil =>
      obtain rfl : types = [] := List.length_eq_zero_iff.mp count.symm
      obtain ⟨rfl, rfl⟩ := Prod.mk.inj (pure_ok.mp (by rwa [lowerArguments] at run; exact nofun))
      exact ⟨before, rfl, ⟨.refl ready, takes, rfl, nofun⟩, rfl⟩
  | cons argument rest ih =>
      cases types with
      | nil => simp at count
      | cons wanted types =>
          obtain ⟨value, _, others, valueRun, typed, notVoid, othersRun, rfl⟩ :=
            lowerArguments_cons_ok run
          obtain ⟨middle, rfl, valueDone⟩ :=
            evaluating argument List.mem_cons_self ready takes valueRun
          obtain ⟨after, rfl, othersDone, othersTyped⟩ :=
            ih (fun other member => evaluating other (List.mem_cons_of_mem _ member))
              valueDone.ready valueDone.takes (by simpa using count) othersRun
          refine ⟨after, rfl, ⟨valueDone.course.trans othersDone.course, othersDone.takes,
            othersDone.meanings.trans valueDone.meanings, ?_⟩, by
              rw [List.map_cons, typed, othersTyped]⟩
          rintro _ (_ | ⟨_, later⟩)
          · exact (valueDone.usable notVoid).mono othersDone.course valueDone.ready
          · exact othersDone.usable _ later

theorem call_evaluates {callee : Identifier} {closing : Token} :
    Evaluating signature? (.call callee arguments closing) := by
  intro context before last value ready takes run
  rcases lowerExpr_call_ok run with
    ⟨found, signature, values, _, finds, typed, count, valuesRun, rfl, rfl⟩ |
    ⟨argument, printed, _, format, -, -, rfl, printedRun, formats, rfl, rfl⟩
  · have used := (Course.refl ready).use found callee.name
    have same := ready.wellScoped.meaning?_use found callee.name
    obtain ⟨rfl', means⟩ := ready.wellScoped.function_of_find? finds typed
    obtain ⟨known, valid⟩ := ready.callable _ _ means
    obtain ⟨middle, rfl, valuesDone, types⟩ :=
      arguments_evaluate evaluating used.ready takes count valuesRun
    exact ⟨_, rfl, .invoke (used.trans valuesDone.course) valuesDone.takes
      (valuesDone.meanings.trans same) (rfl' ▸ known) valid types valuesDone.usable⟩
  · obtain ⟨middle, rfl, printedDone⟩ :=
      evaluating argument List.mem_cons_self ready takes printedRun
    exact ⟨_, rfl, .print printedDone.course printedDone.takes printedDone.meanings formats
      printedDone.usable⟩

end Calls

mutual

/-- **Lowering an expression is a course that yields its value.** -/
theorem lowerExpr_evaluates : ∀ expression :
    Expr, expression.Written → Evaluating signature? expression
  | .literal _ _, written => literal_evaluates written
  | .variable identifier, _ => variable_evaluates identifier
  | .group _ inner _, written => group_evaluates (lowerExpr_evaluates inner written)
  | .binary left _ right, written =>
      binary_evaluates (lowerExpr_evaluates left written.1) (lowerExpr_evaluates right written.2)
  | .logical left _ right, written =>
      logical_evaluates (lowerExpr_evaluates left written.1) (lowerExpr_evaluates right written.2)
  | .unary _ operand, written => unary_evaluates (lowerExpr_evaluates operand written)
  | .assignment _ _ expression, written =>
      assignment_evaluates (lowerExpr_evaluates expression written)
  | .call _ arguments _, written => call_evaluates (lowerExprs_evaluate arguments written)

/-- So is lowering each of some expressions. -/
theorem lowerExprs_evaluate : ∀ expressions : List Expr, Expr.AllWritten expressions →
    ∀ expression ∈ expressions, Evaluating signature? expression
  | [], _ => List.forall_mem_nil _
  | expression :: rest, written => List.forall_mem_cons.mpr
      ⟨lowerExpr_evaluates expression written.1, lowerExprs_evaluate rest written.2⟩

end

/-- Lowering the arguments of a call is a course that yields their values. -/
theorem lowerArguments_evaluates (arguments : List Expr) (written : Expr.AllWritten arguments)
    {name : Bytes} {number : Nat} {types : List BasicType} {values : List Value}
    (ready : before.Ready signature? context) (takes : before.state.isOpen = true)
    (count : arguments.length = types.length)
    (run : lowerArguments context name number types arguments before.state = .ok (values, last)) :
    ∃ after : Draft, after.state = last ∧ EvaluatesAll signature? context before after values ∧
      values.map Value.type = types :=
  arguments_evaluate (lowerExprs_evaluate arguments written) ready takes count run

end Recursion

end ScriptCompiler.Lowering
