import ScriptCompiler.Proofs.IR.Soundness
import ScriptCompiler.Proofs.IR.Verification

/-!
# Sound functions do not get stuck

A frame suits a point of a function when the results and slots in it have their types and what has
been supplied up to the point is there.  One instruction keeps this (`Instr.action_sound`), hence so
does a block and a whole run.
-/

namespace ScriptCompiler.IR

open Semantics

variable {Double : Type} {machine : Machine Double} {strings : List Bytes} {interface : Interface}
  {function : Function} {known : Nat → Set Supply} {held : Set Supply} {frame : Frame Double}

/-- A supply is there. -/
def Frame.Holds (frame : Frame Double) : Supply → Prop
  | .result id => (frame.temps id).isSome
  | .slot id => (frame.slots id).isSome
  | .content id => ∃ datum, frame.slots id = some (some datum)

/-- A frame that may occur where some supplies are held. -/
structure Frame.Suits (frame : Frame Double) (function : Function) (held : Set Supply) : Prop where
  /-- The arguments have the types of the parameters. -/
  arguments : frame.arguments.map Datum.type = function.params.map Place.type
  /-- Results have their types. -/
  temps : ∀ temp, Value.temp temp ∈ function.results →
    ∀ datum, frame.temps temp.id = some datum → datum.type = temp.type
  /-- What slots hold has their types. -/
  slots : ∀ place, Value.slot place ∈ function.results →
    ∀ datum, frame.slots place.id = some (some datum) → datum.type = place.type
  /-- The supplies are there. -/
  holds : ∀ supply ∈ held, frame.Holds supply

/-- A function with a result type may return this. -/
def Returned (result : BasicType) : Option (Datum Double) → Prop
  | none => result = .void
  | some datum => datum.type = result

/-- A run that is not stuck and returns what it may. -/
def FineRun (result : BasicType) (run : Run Double (Option (Datum Double) × Trace Double)) : Prop :=
  run ≠ .stuck ∧ ∀ value trace, run = .done (value, trace) → Returned result value

namespace Frame.Suits

theorem mono {fewer : Set Supply} (suits : frame.Suits function held) (subset : fewer ⊆ held) :
    frame.Suits function fewer :=
  ⟨suits.arguments, suits.temps, suits.slots,
    fun supply member => suits.holds supply (subset member)⟩

/-- A result of the right type suits. -/
theorem define (suits : frame.Suits function held) (sound : function.Sound interface) {temp : Temp}
    {datum : Datum Double} (member : Value.temp temp ∈ function.results)
    (typed : datum.type = temp.type) :
    (frame.define temp datum).Suits function
      { supply | supply ∈ held ∨ supply = .result temp.id } where
  arguments := suits.arguments
  temps := by
    intro other otherMem content found
    by_cases same : other.id = temp.id
    · have equal := sound.eq_of_id otherMem member (congrArg some same) rfl
      obtain rfl : other = temp := Value.temp.inj equal
      simp only [Frame.define, Function.update_self, Option.some.injEq] at found
      exact found ▸ typed
    · simp only [Frame.define, Function.update_of_ne same] at found
      exact suits.temps other otherMem content found
  slots := suits.slots
  holds := by
    rintro supply (old | rfl)
    · cases supply with
      | result id =>
          by_cases same : id = temp.id
          · simp [Frame.Holds, Frame.define, same]
          · simpa [Frame.Holds, Frame.define, Function.update_of_ne same] using suits.holds _ old
      | slot id => exact suits.holds _ old
      | content id => exact suits.holds _ old
    · simp [Frame.Holds, Frame.define]

/-- A new slot suits. -/
theorem make (suits : frame.Suits function held) (place : Place) :
    (frame.make place).Suits function { supply | supply ∈ held ∨ supply = .slot place.id } where
  arguments := suits.arguments
  temps := suits.temps
  slots := by
    intro other otherMem content found
    by_cases same : other.id = place.id
    · simp only [Frame.make, same, Function.update_self] at found
      cases there : frame.slots place.id with
      | none => simp [there] at found
      | some old =>
          simp only [there, Option.or_some, Option.some.injEq] at found
          exact suits.slots other otherMem content (by rw [same, there]; simpa using found)
    · simp only [Frame.make, Function.update_of_ne same] at found
      exact suits.slots other otherMem content found
  holds := by
    rintro supply (old | rfl)
    · cases supply with
      | result id => exact suits.holds _ old
      | slot id =>
          by_cases same : id = place.id
          · simp [Frame.Holds, Frame.make, same]
          · simpa [Frame.Holds, Frame.make, Function.update_of_ne same] using suits.holds _ old
      | content id =>
          by_cases same : id = place.id
          · subst same
            obtain ⟨datum, there⟩ := suits.holds _ old
            exact ⟨datum, by simp [Frame.make, there]⟩
          · simpa [Frame.Holds, Frame.make, Function.update_of_ne same] using suits.holds _ old
    · simp [Frame.Holds, Frame.make]

/-- A slot with a new content of the right type suits. -/
theorem fill (suits : frame.Suits function held) (sound : function.Sound interface) {place : Place}
    {datum : Datum Double} (member : Value.slot place ∈ function.results)
    (typed : datum.type = place.type) :
    (frame.fill place datum).Suits function
      { supply | supply ∈ held ∨ supply = .content place.id } where
  arguments := suits.arguments
  temps := suits.temps
  slots := by
    intro other otherMem content found
    by_cases same : other.id = place.id
    · have equal := sound.eq_of_id otherMem member (congrArg some same) rfl
      obtain rfl : other = place := Value.slot.inj equal
      simp only [Frame.fill, Function.update_self, Option.some.injEq] at found
      exact found ▸ typed
    · simp only [Frame.fill, Function.update_of_ne same] at found
      exact suits.slots other otherMem content found
  holds := by
    rintro supply (old | rfl)
    · cases supply with
      | result id => exact suits.holds _ old
      | slot id =>
          by_cases same : id = place.id
          · simp [Frame.Holds, Frame.fill, same]
          · simpa [Frame.Holds, Frame.fill, Function.update_of_ne same] using suits.holds _ old
      | content id =>
          by_cases same : id = place.id
          · simp [Frame.Holds, Frame.fill, same]
          · simpa [Frame.Holds, Frame.fill, Function.update_of_ne same] using suits.holds _ old
    · simp [Frame.Holds, Frame.fill]

end Frame.Suits

section Operands

/-- An operand of a type that is supplied has a value of the type. -/
theorem Value.exists_datum (machine : Machine Double) (sound : function.Sound interface)
    (texts : interface.texts = strings.length) (suits : frame.Suits function held)
    {type : BasicType} {value : Value} (typed : value.HasType function interface type)
    (demands : ∀ supply ∈ value.demands, supply ∈ held) :
    ∃ datum, value.datum? machine strings frame = some datum ∧ datum.type = type := by
  obtain ⟨-, typed⟩ := typed
  cases value with
  | constant content =>
      obtain ⟨fits, rfl⟩ := typed
      cases content with
      | int | float | bool => exact ⟨_, rfl, rfl⟩
      | nothing => exact fits.elim
  | param place =>
      obtain ⟨member, rfl⟩ := typed
      obtain ⟨index, found⟩ := List.mem_iff_getElem?.mp member
      have types := congrArg (fun types => types[index]?) suits.arguments
      simp only [List.getElem?_map, found, Option.map_some, Option.map_eq_some_iff] at types
      obtain ⟨datum, there, typed⟩ := types
      exact ⟨datum, by rw [Value.datum?, sound.params_id index place found, there], typed⟩
  | slot place => exact typed.elim
  | temp result =>
      obtain ⟨member, rfl⟩ := typed
      obtain ⟨datum, there⟩ :=
        Option.isSome_iff_exists.mp (suits.holds _ (demands (.result result.id) List.mem_cons_self))
      exact ⟨datum, there, suits.temps result member datum there⟩
  | string index =>
      obtain ⟨below, rfl⟩ := typed
      exact ⟨.string strings[index], by simp [Value.datum?, texts ▸ below], rfl⟩
  | stray name => exact typed.elim

theorem Value.exists_data (machine : Machine Double) (sound : function.Sound interface)
    (texts : interface.texts = strings.length) (suits : frame.Suits function held)
    {types : List BasicType} {values : List Value}
    (typed : List.Forall₂ (fun value type => value.HasType function interface type) values types)
    (demands : ∀ supply ∈ values.flatMap Value.demands, supply ∈ held) :
    ∃ data, values.mapM (Value.datum? machine strings frame) = some data ∧
      data.map Datum.type = types := by
  induction typed with
  | nil => exact ⟨[], rfl, rfl⟩
  | cons head tail ih =>
      simp only [List.flatMap_cons, List.mem_append] at demands
      obtain ⟨datum, there, typed⟩ := Value.exists_datum machine sound texts suits head
        fun supply asked => demands supply (.inl asked)
      obtain ⟨data, theres, types⟩ := ih fun supply asked => demands supply (.inr asked)
      exact ⟨datum :: data, by simp [List.mapM_cons, there, theres], by simp [typed, types]⟩

theorem BinaryOpcode.compute_typed (machine : Machine Double) {opcode : BinaryOpcode}
    {left right : Datum Double} {type result : BasicType} (leftType : left.type = type)
    (rightType : right.type = type) (typed : opcode.result? type = some result) :
    opcode.compute machine left right = .trap ∨
      ∃ datum, opcode.compute machine left right = .value datum ∧ datum.type = result := by
  subst leftType
  cases left <;> cases right <;> cases rightType
  all_goals
    cases opcode <;> simp only [BinaryOpcode.result?, Datum.type, Option.some.injEq, reduceCtorEq]
      at typed
  all_goals subst typed
  all_goals simp only [BinaryOpcode.compute]
  all_goals first | exact .inr ⟨_, rfl, rfl⟩ | skip
  all_goals
    split
    · exact .inl rfl
    · exact .inr ⟨_, rfl, rfl⟩

theorem UnaryOpcode.compute_typed (machine : Machine Double) {opcode : UnaryOpcode}
    {operand : Datum Double} {type result : BasicType} (operandType : operand.type = type)
    (typed : opcode.result? type = some result) :
    ∃ datum, opcode.compute machine operand = .value datum ∧ datum.type = result := by
  subst operandType
  cases operand <;> cases opcode <;>
    simp only [UnaryOpcode.result?, Datum.type, Option.some.injEq, reduceCtorEq] at typed
  all_goals
    subst typed
    exact ⟨_, rfl, rfl⟩

end Operands

section Steps

/-- What an instruction may ask for where some supplies are held. -/
def Action.Fine (function : Function) (interface : Interface) (held : Set Supply) (instr : Instr) :
    Action Double → Prop
  | .proceed frame => frame.Suits function (supplied held [instr])
  | .invoke dest name data =>
      ∃ signature, interface.signature? name = some signature ∧
        data.map Datum.type = signature.params ∧
        instr.supplies = dest.toList.map (fun temp => .result temp.id) ∧
        ∀ temp ∈ dest, Value.temp temp ∈ function.results ∧ temp.type = signature.result ∧
          signature.result.IsValue
  | .print dest _ => dest = none ∧ instr.supplies = []
  | .goto target => ∃ name ∈ instr.targets, name.id = target
  | .leave value => Returned function.result value
  | .trap => True
  | .stuck => False

theorem result_mem {instr : Instr} (member : instr ∈ function.instrs) {value : Value}
    (result : instr.result? = some value) : value ∈ function.results :=
  List.mem_filterMap.mpr ⟨instr, member, result⟩

theorem Frame.Suits.define_fine (suits : frame.Suits function held)
    (sound : function.Sound interface) {instr : Instr} {dest : Temp} {datum : Datum Double}
    (member : instr ∈ function.instrs) (result : instr.result? = some (.temp dest))
    (supplies : instr.supplies = [.result dest.id]) (typed : datum.type = dest.type) :
    (frame.define dest datum).Suits function (supplied held [instr]) := by
  refine (suits.define sound (result_mem member result) typed).mono ?_
  rintro supply (old | ⟨other, within, given⟩)
  · exact .inl old
  · rw [List.mem_singleton.mp within, supplies, List.mem_singleton] at given
    exact .inr given

/-- One instruction of a sound function, in a frame that suits, is not stuck and leaves a frame that
suits the next one. -/
theorem Instr.action_sound (machine : Machine Double) (sound : function.Sound interface)
    (texts : interface.texts = strings.length) (suits : frame.Suits function held) {instr : Instr}
    (member : instr ∈ function.instrs) (demands : ∀ supply ∈ instr.demands, supply ∈ held) :
    (instr.action machine strings frame).Fine function interface held instr := by
  have typed := sound.typed instr member
  have operand : ∀ {type : BasicType} {value : Value}, value.HasType function interface type →
      (∀ supply ∈ value.demands, supply ∈ held) →
      ∃ datum, value.datum? machine strings frame = some datum ∧ datum.type = type :=
    fun typed asked => Value.exists_datum machine sound texts suits typed asked
  cases instr with
  | binary opcode dest left right =>
      obtain ⟨type, leftTyped, rightTyped, resultTyped⟩ := typed
      simp only [Instr.demands, Instr.operands, List.flatMap_cons, List.flatMap_nil,
        List.append_nil,
        List.mem_append] at demands
      obtain ⟨first, firstFound, firstType⟩ :=
        operand leftTyped fun s asked => demands s (.inl asked)
      obtain ⟨second, secondFound, secondType⟩ :=
        operand rightTyped fun s asked => demands s (.inr asked)
      simp only [Instr.action, firstFound, secondFound]
      obtain trap | ⟨datum, computed, datumType⟩ :=
        BinaryOpcode.compute_typed machine firstType secondType resultTyped
      · rw [trap]
        trivial
      · rw [computed]
        exact suits.define_fine sound member rfl rfl datumType
  | unary opcode dest value =>
      obtain ⟨type, valueTyped, resultTyped⟩ := typed
      simp only [Instr.demands, Instr.operands, List.flatMap_cons, List.flatMap_nil,
        List.append_nil] at demands
      obtain ⟨datum, found, datumType⟩ := operand valueTyped demands
      obtain ⟨result, computed, resultType⟩ :=
        UnaryOpcode.compute_typed machine datumType resultTyped
      simp only [Instr.action, found, computed]
      exact suits.define_fine sound member rfl rfl resultType
  | copy dest value =>
      simp only [Instr.demands, Instr.operands, List.flatMap_cons, List.flatMap_nil,
        List.append_nil] at demands
      obtain ⟨datum, found, datumType⟩ := operand typed demands
      simp only [Instr.action, found]
      exact suits.define_fine sound member rfl rfl datumType
  | alloca place =>
      refine (suits.make place).mono ?_
      rintro supply (old | ⟨other, within, given⟩)
      · exact .inl old
      · rw [List.mem_singleton.mp within] at given
        exact .inr (List.mem_singleton.mp given)
  | load dest address =>
      obtain ⟨place, rfl, slotMem, destType⟩ := typed
      obtain ⟨datum, there⟩ := suits.holds _ (demands (.content place.id) List.mem_cons_self)
      simp only [Instr.action, Frame.content?, there, Option.join_some]
      exact suits.define_fine sound member rfl rfl
        ((suits.slots place slotMem datum there).trans destType.symm)
  | store address value =>
      obtain ⟨place, rfl, slotMem, valueTyped⟩ := typed
      simp only [Instr.demands, List.mem_cons] at demands
      obtain ⟨datum, found, datumType⟩ := operand valueTyped fun s asked => demands s (.inr asked)
      obtain ⟨content, there⟩ :=
        Option.isSome_iff_exists.mp (suits.holds _ (demands (.slot place.id) (.inl rfl)))
      simp only [Instr.action, found, there]
      refine (suits.fill sound slotMem datumType).mono ?_
      rintro supply (old | ⟨other, within, given⟩)
      · exact .inl old
      · rw [List.mem_singleton.mp within] at given
        exact .inr (List.mem_singleton.mp given)
  | call dest callee arguments =>
      obtain ⟨linkage, name⟩ := callee
      cases linkage with
      | defined =>
          obtain ⟨signature, known, argumentsTyped, destTyped, _⟩ := typed
          obtain ⟨data, found, dataTypes⟩ :=
            Value.exists_data machine sound texts suits argumentsTyped demands
          simp only [Instr.action, found]
          refine ⟨signature, known, dataTypes, rfl, fun temp there => ⟨?_, destTyped temp there⟩⟩
          exact result_mem member (by rw [there]; rfl)
      | external =>
          obtain ⟨rfl, rfl, format, value, type, rfl, formatTyped, valueTyped⟩ := typed
          simp only [Instr.demands, Instr.operands, List.flatMap_cons, List.flatMap_nil,
            List.append_nil, List.mem_append] at demands
          obtain ⟨text, textFound, textType⟩ :=
            operand formatTyped fun s asked => demands s (.inl asked)
          obtain ⟨datum, found, _⟩ := operand valueTyped fun s asked => demands s (.inr asked)
          cases text with
          | string content =>
              simp only [Instr.action, List.mapM_cons, List.mapM_nil, textFound, found,
                Option.pure_def, Option.bind_eq_bind, Option.bind_some, externalAction,
                beq_self_eq_true, if_true]
              exact ⟨rfl, rfl⟩
          | int | float | bool => cases textType
      | unknown => exact typed.elim
  | jump target => exact ⟨target, List.mem_cons_self, rfl⟩
  | branch condition ifTrue ifFalse =>
      simp only [Instr.demands, Instr.operands, List.flatMap_cons, List.flatMap_nil,
        List.append_nil] at demands
      obtain ⟨datum, found, datumType⟩ := operand typed demands
      cases datum with
      | bool flag =>
          simp only [Instr.action, found]
          cases flag with
          | true => exact ⟨ifTrue, List.mem_cons_self, rfl⟩
          | false => exact ⟨ifFalse, List.mem_cons_of_mem _ List.mem_cons_self, rfl⟩
      | int | float | string => cases datumType
  | ret value =>
      cases value with
      | none => exact typed
      | some value =>
          simp only [Instr.demands, Instr.operands, Option.toList_some, List.flatMap_cons,
            List.flatMap_nil, List.append_nil] at demands
          obtain ⟨datum, found, datumType⟩ := operand typed demands
          simp only [Instr.action, found]
          exact datumType

end Steps

section Runs

theorem Frame.Suits.receive (suits : frame.Suits function held) (sound : function.Sound interface)
    {instr : Instr} {dest : Option Temp} {value : Option (Datum Double)} {result : BasicType}
    (supplies : instr.supplies = dest.toList.map (fun temp => .result temp.id))
    (typed : ∀ temp ∈ dest, Value.temp temp ∈ function.results ∧ temp.type = result ∧
      result.IsValue)
    (returned : Returned result value) :
    ∃ next, frame.receive dest value = some next ∧ next.Suits function (supplied held [instr]) := by
  cases dest with
  | none =>
      refine ⟨frame, rfl, suits.mono ?_⟩
      rintro supply (old | ⟨other, within, given⟩)
      · exact old
      · rw [List.mem_singleton.mp within, supplies] at given
        cases given
  | some temp =>
      obtain ⟨member, tempType, isValue⟩ := typed temp rfl
      cases value with
      | none => exact absurd returned isValue.1
      | some datum =>
          refine ⟨frame.define temp datum, rfl, ?_⟩
          refine (suits.define sound member (Eq.trans returned tempType.symm)).mono ?_
          rintro supply (old | ⟨other, within, given⟩)
          · exact .inl old
          · rw [List.mem_singleton.mp within, supplies] at given
            exact .inr (List.mem_singleton.mp given)

theorem FineRun.of_unfinished (result : BasicType) :
    FineRun result (.unfinished : Run Double (Option (Datum Double) × Trace Double)) :=
  ⟨by simp, by simp⟩

theorem FineRun.of_trapped (result : BasicType) (trace : Trace Double) :
    FineRun result (.trapped trace : Run Double (Option (Datum Double) × Trace Double)) :=
  ⟨by simp, by simp⟩

theorem FineRun.of_done {result : BasicType} {value : Option (Datum Double)}
    (returned : Returned result value) (trace : Trace Double) :
    FineRun result (.done (value, trace)) := by
  refine ⟨by simp, ?_⟩
  rintro _ _ ⟨⟩
  exact returned

/-- Calls of functions that can be called are fine. -/
def FineCalls (interface : Interface) (call : Call Double) : Prop :=
  ∀ name signature, interface.signature? name = some signature →
    ∀ data : List (Datum Double), data.map Datum.type = signature.params →
      ∀ trace, FineRun signature.result (call name data trace)

variable (machine strings frame) in
/-- An instruction that goes on to the next one is no terminator. -/
theorem Instr.isTerminator_of_action (instr : Instr)
    (noGoto : ∀ target, instr.action machine strings frame ≠ .goto target)
    (noLeave : ∀ value, instr.action machine strings frame ≠ .leave value)
    (notStuck : instr.action machine strings frame ≠ .stuck) : instr.isTerminator = false := by
  cases instr with
  | jump target => exact absurd rfl (noGoto target.id)
  | branch condition ifTrue ifFalse =>
      have goes : (∃ target, action machine strings frame (.branch condition ifTrue ifFalse) =
          .goto target) ∨
          action machine strings frame (.branch condition ifTrue ifFalse) = .stuck := by
        simp only [action]
        split
        · exact .inl ⟨_, rfl⟩
        · exact .inl ⟨_, rfl⟩
        · exact .inr rfl
      rcases goes with ⟨target, goes⟩ | stays
      · exact absurd goes (noGoto target)
      · exact absurd stays notStuck
  | ret value =>
      cases value with
      | none => exact absurd rfl (noLeave none)
      | some value =>
          simp only [action] at noLeave notStuck
          cases found : value.datum? machine strings frame with
          | none => simp [found] at notStuck
          | some datum => simp [found] at noLeave
  | binary | unary | copy | alloca | load | store | call => rfl

/-- Covered code of a sound function that has an end is not stuck. -/
theorem runInstrs_sound (sound : function.Sound interface)
    (texts : interface.texts = strings.length)
    {call : Call Double} (calls : FineCalls interface call) {goto : Onward Double}
    {instrs : List Instr} (within : ∀ instr ∈ instrs, instr ∈ function.instrs)
    (gotos : ∀ instr ∈ instrs, ∀ target ∈ instr.targets, ∀ frame trace,
      frame.Suits function (known target.id) → FineRun function.result (goto target.id frame trace))
    (ends : ∃ instr ∈ instrs, instr.isTerminator = true) (covered : Covered known held instrs)
    (suits : frame.Suits function held) (trace : Trace Double) :
    FineRun function.result (runInstrs machine strings call goto instrs frame trace) := by
  induction instrs generalizing held frame trace with
  | nil => simp at ends
  | cons instr rest ih =>
      obtain ⟨demands, targets, later⟩ := covered
      have fine :=
        Instr.action_sound machine sound texts suits (within instr List.mem_cons_self) demands
      have onward : instr.isTerminator = false → ∀ {next : Frame Double},
          next.Suits function (supplied held [instr]) → ∀ trace,
            FineRun function.result (runInstrs machine strings call goto rest next trace) := by
        intro body next nextSuits trace
        refine ih (fun other member => within other (List.mem_cons_of_mem instr member))
          (fun other member => gotos other (List.mem_cons_of_mem instr member)) ?_ later
            nextSuits trace
        obtain ⟨last, member, terminator⟩ := ends
        rcases List.mem_cons.mp member with rfl | member
        · exact absurd terminator (by simp [body])
        · exact ⟨last, member, terminator⟩
      have body := instr.isTerminator_of_action machine strings frame
      simp only [runInstrs]
      cases action : instr.action machine strings frame with
      | proceed next =>
          rw [action] at fine
          exact onward (body (by simp [action]) (by simp [action]) (by simp [action])) fine trace
      | invoke dest name data =>
          rw [action] at fine
          obtain ⟨signature, known, dataTypes, supplies, destTyped⟩ := fine
          have fineCall := calls name signature known data dataTypes trace
          dsimp only
          cases called : call name data trace with
          | done outcome =>
              obtain ⟨value, newTrace⟩ := outcome
              obtain ⟨next, received, nextSuits⟩ :=
                suits.receive sound supplies destTyped (fineCall.2 value newTrace called)
              simp only [Run.bind_done, received]
              exact onward (body (by simp [action]) (by simp [action]) (by simp [action])) nextSuits
                newTrace
          | trapped newTrace => exact FineRun.of_trapped _ _
          | stuck => exact absurd called fineCall.1
          | unfinished => exact FineRun.of_unfinished _
      | print dest event =>
          rw [action] at fine
          obtain ⟨rfl, supplies⟩ := fine
          refine onward (body (by simp [action]) (by simp [action]) (by simp [action]))
            (suits.mono ?_) _
          rintro supply (old | ⟨other, within, given⟩)
          · exact old
          · rw [List.mem_singleton.mp within, supplies] at given
            cases given
      | goto target =>
          rw [action] at fine
          obtain ⟨name, member, rfl⟩ := fine
          exact gotos instr List.mem_cons_self name member frame trace
            (suits.mono (targets name member))
      | leave value =>
          rw [action] at fine
          exact FineRun.of_done fine trace
      | trap => exact FineRun.of_trapped _ _
      | stuck =>
          rw [action] at fine
          exact fine.elim

theorem Function.enter_sound (sound : function.Sound interface)
    (texts : interface.texts = strings.length)
    (wellFormed : ∀ block ∈ function.blocks, ∃ callees, block.WellFormed function callees)
    (certified : ∀ block ∈ function.blocks, Covered known (known block.name.id) block.instrs)
    {call : Call Double} (calls : FineCalls interface call) (bound : Nat) {id : Nat}
    (owned : (function.block? id).isSome) (suits : frame.Suits function (known id))
    (trace : Trace Double) :
    FineRun function.result (function.enter machine strings call bound id frame trace) := by
  induction bound generalizing id frame trace with
  | zero => exact FineRun.of_unfinished _
  | succ bound ih =>
      obtain ⟨block, found⟩ := Option.isSome_iff_exists.mp owned
      have member := Function.mem_of_block? found
      obtain ⟨callees, formed⟩ := wellFormed block member
      obtain rfl := Function.id_of_block? found
      simp only [Function.enter, found]
      refine runInstrs_sound sound texts calls (fun instr within => ?_)
        (fun instr within target aims frame trace suits => ?_) ?_ (certified block member)
          suits trace
      · exact List.mem_flatMap.mpr ⟨block, member, within⟩
      · exact ih (formed.owned instr within target aims) suits trace
      · obtain ⟨body, last, split, terminator⟩ := Block.isTerminated_iff.mp formed.terminated
        exact ⟨last, by simp [split], terminator⟩

/-- **Soundness.** No call of a function of a well-formed module of sound functions gets stuck, and
what it returns has the type of the function's result. -/
theorem Module.call_sound {module : Module} (sound : module.Sound)
    (wellFormed : module.violations = []) (bound : Nat) :
    FineCalls module.interface (module.call machine bound) := by
  induction bound with
  | zero => exact fun _ _ _ _ _ _ => FineRun.of_unfinished _
  | succ bound ih =>
      intro name signature known data dataTypes trace
      obtain ⟨function, found, rfl⟩ := Option.map_eq_some_iff.mp known
      have member : function ∈ module.functions := List.mem_of_find?_eq_some found
      have functionSound := sound function member
      obtain ⟨-, formed⟩ := Module.violations_eq_nil_iff.mp wellFormed
      have blocks := (Function.violations_eq_nil_iff.mp (formed function member)).1
      obtain ⟨known, start, certified⟩ := functionSound.covered
      simp only [Module.call, found]
      refine Function.enter_sound functionSound rfl (fun block within => ⟨_, blocks block within⟩)
        certified ih bound functionSound.entry_isSome ?_ trace
      refine ⟨dataTypes, ?_, ?_, ?_⟩
      · intro temp _ datum there
        cases there
      · intro place _ datum there
        cases there
      · simp [start]

end Runs

end ScriptCompiler.IR
