import ScriptCompiler.Proofs.IR.Typing
import ScriptCompiler.Proofs.Optimize.Rewriting

/-!
# Optimized code is well typed

Folding puts constants in the place of operands and results.  A constant that is known for a number
has the type of the number, because operations on constants compute what their opcode says.  So
folded code is typed as it was, and dead code elimination only takes instructions away.

The main statement is `Module.WellTyped.optimize`, for any optimizer.
-/

namespace ScriptCompiler.IR

/-- Known constants have the types of their numbers. -/
def Known.Obeys (types : Nat → BasicType) (known : Known) : Prop :=
  ∀ entry ∈ known, entry.2.type = types entry.1

section Values

variable {types : Nat → BasicType} {known : Known} {value : Value} {type : BasicType}

theorem Constant.type_isValue (content : Constant) : content.type.IsValue := by
  cases content <;> simp [Constant.type, BasicType.IsValue]

theorem mem_of_lookup {id : Nat} {content : Constant} (found : known.lookup id = some content) :
    (id, content) ∈ known := by
  induction known with
  | nil => cases found
  | cons entry rest ih =>
      obtain ⟨number, other⟩ := entry
      rw [List.lookup_cons] at found
      split at found
      · rename_i same
        cases found
        rw [eq_of_beq same]
        exact List.mem_cons_self
      · exact List.mem_cons_of_mem _ (ih found)

/-- A constant in the place of a value has its type. -/
theorem Value.type_of_known? {content : Constant} (obeys : value.Obeys types)
    (knownObeys : known.Obeys types) (found : value.known? known = some content) :
    content.type = value.type := by
  cases value with
  | temp result =>
      exact (knownObeys _ (mem_of_lookup found)).trans (obeys result.id rfl).symm
  | constant | param | slot | string | stray => cases found

theorem Value.type_replaced (obeys : value.Obeys types) (knownObeys : known.Obeys types) :
    (value.replaced known).type = value.type := by
  unfold replaced
  split
  · rename_i content found
    exact value.type_of_known? obeys knownObeys found
  · rfl

theorem Value.Yields.replaced (yields : value.Yields type) (obeys : value.Obeys types)
    (knownObeys : known.Obeys types) : (value.replaced known).Yields type := by
  unfold Value.replaced
  split
  · rename_i content found
    have same := value.type_of_known? obeys knownObeys found
    cases value with
    | temp result => exact ⟨yields.1, same.trans yields.2⟩
    | constant | param | slot | string | stray => cases found
  · exact yields

theorem Value.Obeys.replaced (obeys : value.Obeys types) : (value.replaced known).Obeys types := by
  unfold Value.replaced
  split
  · exact nofun
  · exact obeys

end Values

section Operations

variable {content : Constant}

theorem BinaryOpcode.onInts?_type {opcode : BinaryOpcode} {left right : Int}
    (run : opcode.onInts? left right = some content) :
    content.type = if opcode.isComparison then .bool else .int := by
  unfold BinaryOpcode.onInts? at run
  split at run
  case h_4 | h_5 =>
    split at run
    · cases run
    · cases run
      rfl
  all_goals
    cases run
    try rfl

theorem BinaryOpcode.onFloats?_type {opcode : BinaryOpcode} {left right : Float}
    (run : opcode.onFloats? left right = some content) :
    content.type = if opcode.isComparison then .bool else .float := by
  unfold BinaryOpcode.onFloats? at run
  dsimp only at run
  split at run
  all_goals
    cases run
    try rfl

theorem BinaryOpcode.onBools?_type {opcode : BinaryOpcode} {left right : Bool}
    (run : opcode.onBools? left right = some content) :
    content.type = if opcode.isComparison then .bool else .bool := by
  unfold BinaryOpcode.onBools? at run
  split at run
  all_goals
    cases run
    try rfl

/-- An operation on constants makes a constant of the type of its result. -/
theorem BinaryOpcode.onConstants?_type {opcode : BinaryOpcode} {left right : Constant}
    (run : opcode.onConstants? left right = some content) :
    content.type = if opcode.isComparison then .bool else left.type := by
  unfold BinaryOpcode.onConstants? at run
  split at run
  · exact onInts?_type run
  · exact onFloats?_type run
  · exact onBools?_type run
  · cases run

theorem UnaryOpcode.onConstant?_type {opcode : UnaryOpcode} {operand : Constant}
    (run : opcode.onConstant? operand = some content) : content.type = operand.type := by
  unfold UnaryOpcode.onConstant? at run
  split at run <;> cases run <;> rfl

end Operations

section Instructions

variable {interface : Interface} {result : BasicType} {types : Nat → BasicType} {known : Known}
  {instr : Instr}

theorem Instr.result?_substituted : (instr.substituted known).result? = instr.result? := by
  cases instr <;> rfl

theorem Instr.mem_operands_substituted {value : Value}
    (read : value ∈ (instr.substituted known).operands) :
    ∃ original ∈ instr.operands, value = original ∨ value = original.replaced known := by
  cases instr with
  | alloca | load | jump => exact ⟨value, read, .inl rfl⟩
  | call dest callee arguments =>
      obtain ⟨original, given, rfl⟩ := List.mem_map.mp read
      exact ⟨original, given, .inr rfl⟩
  | ret result =>
      cases result with
      | none => cases read
      | some original =>
          obtain rfl := List.mem_singleton.mp read
          exact ⟨original, List.mem_singleton_self _, .inr rfl⟩
  | store address stored =>
      simp only [substituted, Instr.operands, List.mem_cons, List.not_mem_nil, or_false] at read
      rcases read with rfl | rfl
      · exact ⟨_, List.mem_cons_self, .inl rfl⟩
      · exact ⟨stored, List.mem_cons_of_mem _ List.mem_cons_self, .inr rfl⟩
  | binary opcode dest left right =>
      simp only [substituted, Instr.operands, List.mem_cons, List.not_mem_nil, or_false] at read
      rcases read with rfl | rfl
      · exact ⟨left, List.mem_cons_self, .inr rfl⟩
      · exact ⟨right, List.mem_cons_of_mem _ List.mem_cons_self, .inr rfl⟩
  | unary opcode dest operand =>
      obtain rfl := List.mem_singleton.mp read
      exact ⟨operand, List.mem_singleton_self _, .inr rfl⟩
  | copy dest operand =>
      obtain rfl := List.mem_singleton.mp read
      exact ⟨operand, List.mem_singleton_self _, .inr rfl⟩
  | branch condition ifTrue ifFalse =>
      obtain rfl := List.mem_singleton.mp read
      exact ⟨condition, List.mem_singleton_self _, .inr rfl⟩

/-- Constants in the place of operands keep an instruction well typed. -/
theorem Instr.WellTyped.substituted (typed : instr.WellTyped interface result)
    (obeys : ∀ value ∈ instr.operands, value.Obeys types) (knownObeys : known.Obeys types) :
    (instr.substituted known).WellTyped interface result := by
  have swap : ∀ {value : Value} {type : BasicType}, value ∈ instr.operands → value.Yields type →
      (value.replaced known).Yields type :=
    fun read yields => yields.replaced (obeys _ read) knownObeys
  cases instr with
  | binary opcode dest left right =>
      obtain ⟨type, operator, leftYields, rightYields, listed⟩ := typed
      exact ⟨type, operator, swap (by simp [operands]) leftYields,
        swap (by simp [operands]) rightYields, listed⟩
  | unary opcode dest operand =>
      obtain ⟨operator, yields, listed⟩ := typed
      exact ⟨operator, swap (by simp [operands]) yields, listed⟩
  | copy dest value => exact swap (by simp [operands]) typed
  | alloca place => exact typed
  | load dest address => exact typed
  | store address value =>
      obtain ⟨type, holds, yields⟩ := typed
      exact ⟨type, holds, swap (by simp [operands]) yields⟩
  | call dest callee arguments =>
      obtain ⟨linkage, name⟩ := callee
      cases linkage with
      | defined =>
          obtain ⟨signature, found, argumentTypes, yields, destType⟩ := typed
          refine ⟨signature, found, ?_, ?_, destType⟩
          · rw [← argumentTypes, List.map_map]
            exact List.map_congr_left fun value given =>
              Value.type_replaced (obeys value given) knownObeys
          · intro replaced given
            obtain ⟨value, within, rfl⟩ := List.mem_map.mp given
            rw [Value.type_replaced (obeys value within) knownObeys]
            exact swap within (yields value within)
      | external =>
          obtain ⟨isFormatter, noDest, format, value, type, rfl, formatYields, valueYields,
            listed⟩ :=
            typed
          exact ⟨isFormatter, noDest, _, _, type, rfl, swap (by simp [operands]) formatYields,
            swap (by simp [operands]) valueYields, listed⟩
      | unknown => exact typed
  | jump target => trivial
  | branch condition ifTrue ifFalse => exact swap (by simp [operands]) typed
  | ret value =>
      cases value with
      | none => exact typed
      | some value => exact ⟨typed.1, swap (by simp [operands]) typed.2⟩

theorem Instr.Consistent.substituted (consistent : instr.Consistent interface result types)
    (knownObeys : known.Obeys types) :
    (instr.substituted known).Consistent interface result types where
  typed := consistent.typed.substituted consistent.operands knownObeys
  operands := by
    intro value read
    obtain ⟨original, given, rfl | rfl⟩ := Instr.mem_operands_substituted read
    · exact consistent.operands value given
    · exact (consistent.operands original given).replaced
  results := by
    rw [Instr.result?_substituted]
    exact consistent.results

/-- What is computed at once has the type of the result. -/
theorem Instr.Consistent.computed {dest : Temp} {content : Constant}
    (consistent : instr.Consistent interface result types)
    (computed : instr.computed? = some (dest, content)) :
    content.type = dest.type ∧ dest.type = types dest.id := by
  have obeys : instr.result? = some (.temp dest) → dest.type = types dest.id :=
    fun isResult => consistent.results _ isResult dest.id rfl
  have typed := consistent.typed
  unfold Instr.computed? at computed
  split at computed
  · rename_i opcode target left right
    obtain ⟨value, run, same⟩ := Option.map_eq_some_iff.mp computed
    cases same
    obtain ⟨type, operator, leftYields, -, -, destType⟩ := typed
    refine ⟨?_, obeys rfl⟩
    rw [BinaryOpcode.onConstants?_type run, destType, show left.type = type from leftYields.2]
  · rename_i opcode target operand
    obtain ⟨value, run, same⟩ := Option.map_eq_some_iff.mp computed
    cases same
    obtain ⟨operator, yields, -⟩ := typed
    exact ⟨(UnaryOpcode.onConstant?_type run).trans yields.2, obeys rfl⟩
  · cases computed

/-- A constant under a name of its type is consistent. -/
theorem Instr.consistent_copy {dest : Temp} {content : Constant} (same : content.type = dest.type)
    (isType : dest.type = types dest.id) :
    (Instr.copy dest (.constant content)).Consistent interface result types where
  typed := ⟨same ▸ content.type_isValue, same⟩
  operands := by
    intro value read id isId
    obtain rfl := List.mem_singleton.mp read
    cases isId
  results := by
    rintro value ⟨⟩ id ⟨⟩
    exact isType

/-- Folding an instruction keeps it well typed, and what becomes known obeys the types. -/
theorem Folding.onInstr_consistent {state : Folding}
    (consistent : instr.Consistent interface result types)
    (knownObeys : state.known.Obeys types) :
    (state.onInstr instr).1.known.Obeys types ∧
      (state.onInstr instr).2.1.Consistent interface result types := by
  have given := consistent.substituted knownObeys
  unfold Folding.onInstr
  dsimp only
  split
  · rename_i dest content computed
    obtain ⟨same, isType⟩ := given.computed computed
    refine ⟨?_, Instr.consistent_copy same isType⟩
    exact List.forall_mem_cons.mpr ⟨same.trans isType, knownObeys⟩
  · split
    · exact ⟨knownObeys, trivial, by simp [Instr.operands], by simp [Instr.result?]⟩
    · split
      · rename_i dest content isCopy
        rw [isCopy] at given
        refine ⟨List.forall_mem_cons.mpr ⟨?_, knownObeys⟩, isCopy ▸ given⟩
        exact given.typed.2.trans (given.results _ rfl dest.id rfl)
      · exact ⟨knownObeys, given⟩

theorem Folding.onInstrs_consistent {state : Folding} {instrs : List Instr}
    (consistent : ∀ instr ∈ instrs, instr.Consistent interface result types)
    (knownObeys : state.known.Obeys types) :
    (state.onInstrs instrs).1.known.Obeys types ∧
      ∀ instr ∈ (state.onInstrs instrs).2.1, instr.Consistent interface result types := by
  induction instrs generalizing state with
  | nil => exact ⟨knownObeys, by simp [Folding.onInstrs]⟩
  | cons instr rest ih =>
      obtain ⟨here, later⟩ := List.forall_mem_cons.mp consistent
      obtain ⟨nextObeys, folded⟩ := Folding.onInstr_consistent here knownObeys
      obtain ⟨lastObeys, others⟩ := ih later nextObeys
      exact ⟨lastObeys, List.forall_mem_cons.mpr ⟨folded, others⟩⟩

theorem Folding.onBlocks_consistent {state : Folding} {blocks : List Block}
    (consistent : ∀ instr ∈ blocks.flatMap Block.instrs, instr.Consistent interface result types)
    (knownObeys : state.known.Obeys types) :
    ∀ instr ∈ (state.onBlocks blocks).2.1.flatMap Block.instrs,
      instr.Consistent interface result types := by
  induction blocks generalizing state with
  | nil => simp [Folding.onBlocks]
  | cons block rest ih =>
      rw [List.flatMap_cons, List.forall_mem_append] at consistent
      obtain ⟨nextObeys, folded⟩ := Folding.onInstrs_consistent consistent.1 knownObeys
      exact List.forall_mem_append.mpr ⟨folded, ih consistent.2 nextObeys⟩

end Instructions

/-! ### Functions and modules -/

namespace Function.WellTyped

variable {interface : Interface} {types : Nat → BasicType} {function : Function}

theorem trims {trimmed : Function} (typed : function.WellTyped interface types)
    (trims : function.Trims trimmed) : trimmed.WellTyped interface types where
  params := by
    rw [trims.head.params_eq]
    exact typed.params
  instrs := by
    rw [trims.head.result_eq]
    exact fun instr member => typed.instrs instr (trims.instrs_subset member)

theorem foldConstants (typed : function.WellTyped interface types) :
    function.foldConstants.1.WellTyped interface types := by
  have folded : WellTyped interface types
      { function with blocks := (Folding.onBlocks {} function.blocks).2.1 } :=
    ⟨typed.params, Folding.onBlocks_consistent typed.instrs (List.forall_mem_nil _)⟩
  exact folded.trims function.foldConstants_trims

end Function.WellTyped

/-- A function with the same head that is typed as another one. -/
def TypedAlike (function other : Function) : Prop :=
  function.SameHead other ∧
    ∀ interface types, function.WellTyped interface types → other.WellTyped interface types

theorem typedAlike_rewriting : Rewriting TypedAlike where
  refl function := ⟨.refl function, fun _ _ typed => typed⟩
  trans first second :=
    ⟨first.1.trans second.1,
      fun interface types typed => second.2 interface types (first.2 _ _ typed)⟩
  folding function := ⟨function.foldConstants_head, fun _ _ typed => typed.foldConstants⟩
  deadCode function :=
    ⟨function.eliminateDeadCode_trims.head,
      fun _ _ typed => typed.trims function.eliminateDeadCode_trims⟩

theorem Optimizer.interface_optimize (optimizer : Optimizer) (module : Module) :
    (optimizer.optimize module).1.interface = module.interface := by
  rw [Module.interface, Module.interface]
  congr 1
  funext name
  exact find?_map_signature (sameHead_rewriting.optimize optimizer module) name

/-- Any optimizer keeps a module well typed. -/
theorem Module.WellTyped.optimize {module : Module} (typed : module.WellTyped)
    (optimizer : Optimizer) :
    (optimizer.optimize module).1.WellTyped := by
  intro function member
  rw [optimizer.interface_optimize]
  have alike := typedAlike_rewriting.optimize optimizer module
  obtain ⟨index, found⟩ := List.mem_iff_get.mp member
  have shorter : index.1 < module.functions.length := by
    rw [alike.length_eq]
    exact index.2
  have related := (List.forall₂_iff_get.mp alike).2 index.1 shorter index.2
  obtain ⟨types, before⟩ := typed _ (List.get_mem module.functions ⟨index.1, shorter⟩)
  exact ⟨types, found ▸ related.2 _ _ before⟩

end ScriptCompiler.IR
