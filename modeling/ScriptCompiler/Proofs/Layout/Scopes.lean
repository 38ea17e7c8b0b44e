import ScriptCompiler.Proofs.Layout.Reading
import ScriptCompiler.Proofs.Lowering.Inversion

/-!
# Lowering at other positions

Lowering keeps the positions of declarations in the scope table and reads them only for the text of
a diagnostic.  So a program at other positions is lowered to the same module, with the same scopes
at the new positions, or it is refused for the same reason at the new position (`build_moved`).
-/

namespace ScriptCompiler

variable (move : Move)

/-- The symbol at its new position. -/
def Symbol.moved (symbol : Symbol) : Symbol := { symbol with position := move symbol.position }

/-- The scope with its symbols at their new positions. -/
def ScopeRecord.moved (record : ScopeRecord) : ScopeRecord :=
  { record with symbols := record.symbols.map (Symbol.moved move) }

/-- The scopes with their symbols at their new positions. -/
def ScopeTable.moved (table : ScopeTable) : ScopeTable :=
  { table with records := table.records.map (ScopeRecord.moved move) }

/-- Two diagnostics about one thing.  The text may speak of other positions, and what was kept for
later and is lost has no position. -/
structure Diagnostic.Alike (diagnostic other : Diagnostic) : Prop where
  /-- They have one category. -/
  category_eq : other.category = diagnostic.category
  /-- More input may help for both or for none. -/
  incomplete_eq : other.incomplete = diagnostic.incomplete
  /-- The second one stands at the new position of the first one. -/
  position_eq : diagnostic.category = .invalidIndex ∨ other.position = move diagnostic.position

variable {move}

namespace ScopeTable

variable {table : ScopeTable} {context : Context} {name : Bytes}

@[simp]
theorem length_records_moved : (table.moved move).records.length = table.records.length :=
  List.length_map ..

theorem record?_moved :
    (table.moved move).record? context = (table.record? context).map (ScopeRecord.moved move) :=
  List.getElem?_map ..

theorem local?_moved :
    (table.moved move).local? context name =
      (table.local? context name).map (Symbol.moved move) := by
  simp only [local?, record?_moved]
  cases table.record? context with
  | none => rfl
  | some record =>
      simp only [Option.map_some, Option.bind_eq_bind, Option.bind_some, ScopeRecord.find?,
        ScopeRecord.moved, List.find?_map]
      rfl

theorem chainWithin_moved (steps : Nat) :
    (table.moved move).chainWithin steps context = table.chainWithin steps context := by
  induction steps generalizing context with
  | zero => rfl
  | succ steps ih =>
      simp only [chainWithin, record?_moved]
      cases table.record? context with
      | none => rfl
      | some record =>
          simp only [Option.map_some, ScopeRecord.moved]
          cases record.parent with
          | none => rfl
          | some parent => simp only [ih]

theorem find?_moved :
    (table.moved move).find? context name = (table.find? context name).map (Symbol.moved move) := by
  simp only [find?, chain, chainWithin_moved, local?_moved]
  induction table.chainWithin (context + 1) context with
  | nil => rfl
  | cons place rest ih =>
      simp only [List.findSome?_cons]
      cases table.local? place name with
      | none => exact ih
      | some symbol => rfl

theorem update_moved {change change' : ScopeRecord → ScopeRecord}
    (commutes : ∀ record, change' (record.moved move) = (change record).moved move) :
    (table.moved move).update context change' = (table.update context change).moved move := by
  simp only [update, moved, mk.injEq, true_and]
  refine List.ext_getElem? fun place => ?_
  simp only [List.getElem?_modify, List.getElem?_map]
  cases table.records[place]? with
  | none => rfl
  | some record => by_cases here : context = place <;> simp [here, commutes]

theorem markUsed_moved :
    (table.moved move).markUsed context name = (table.markUsed context name).moved move := by
  refine update_moved fun record => ?_
  simp only [ScopeRecord.moved, List.map_map, ScopeRecord.mk.injEq, true_and]
  refine List.map_congr_left fun symbol _ => ?_
  by_cases named : symbol.name = name <;> simp [Symbol.moved, named]

theorem child_moved {parent : Context} {kind : ScopeKind} {label : Bytes} :
    (table.moved move).child parent kind label =
      ((table.child parent kind label).1, (table.child parent kind label).2.moved move) := by
  have depth : ((table.moved move).record? parent).map ScopeRecord.depth =
      (table.record? parent).map ScopeRecord.depth := by
    rw [record?_moved, Option.map_map]
    rfl
  rw [child, depth, length_records_moved]
  simp only [child, moved, List.map_append, List.map_cons, List.map_nil]
  rfl

/-- Two outcomes of one step on the scopes: the same one, the second at the new positions. -/
inductive Outcomes {α : Type} (move : Move) (convert : α → α) :
    Except Diagnostic (α × ScopeTable) → Except Diagnostic (α × ScopeTable) → Prop where
  /-- Both have an answer. -/
  | ok (value : α) (table : ScopeTable) :
      Outcomes move convert (.ok (value, table)) (.ok (convert value, table.moved move))
  /-- Both are refused. -/
  | error {diagnostic other : Diagnostic} (alike : diagnostic.Alike move other) :
      Outcomes move convert (.error diagnostic) (.error other)

theorem resolve_moved {use : Position} :
    Outcomes move (Symbol.moved move) (table.resolve context name use)
      ((table.moved move).resolve context name (move use)) := by
  simp only [resolve, find?_moved]
  cases table.find? context name with
  | none => exact .error ⟨rfl, rfl, .inr rfl⟩
  | some symbol =>
      simp only [Option.map_some]
      rw [show (symbol.moved move).context = symbol.context from rfl, markUsed_moved]
      exact .ok _ _

theorem declare_moved {symbol : Symbol} :
    Outcomes move (Symbol.moved move) (table.declare context symbol)
      ((table.moved move).declare context (symbol.moved move)) := by
  have absent : (table.moved move).local? context (symbol.moved move).name =
      (table.local? context symbol.name).map (Symbol.moved move) := local?_moved
  have count : ((table.moved move).record? context).map (fun record => record.symbols.length) =
      (table.record? context).map fun record => record.symbols.length := by
    rw [record?_moved, Option.map_map]
    cases table.record? context <;> simp [ScopeRecord.moved]
  have added : ∀ owned : Symbol, (table.moved move).update context (fun record =>
      { record with symbols := record.symbols ++ [owned.moved move] }) =
      (table.update context fun record =>
        { record with symbols := record.symbols ++ [owned] }).moved move := by
    refine fun owned => update_moved fun record => ?_
    simp only [ScopeRecord.moved, List.map_append, List.map_cons, List.map_nil]
  rw [declare, declare, absent, count]
  cases table.local? context symbol.name with
  | some existing => exact .error ⟨rfl, rfl, .inr rfl⟩
  | none =>
      have both := added { symbol with
        context := context
        index := ((table.record? context).map fun record => record.symbols.length).getD 0 }
      simp only [Symbol.moved] at both
      simp only [Option.map_none, Symbol.moved, both]
      exact .ok _ _

end ScopeTable

namespace Lowering

open IR

/-- The state with its scopes at their new positions. -/
def State.moved (move : Move) (state : State) : State :=
  { state with table := state.table.moved move }

/-- The declared function at its new positions. -/
def Declared.moved (move : Move) (declared : Declared) : Declared :=
  { declared with declaration := declared.declaration.moved move }

variable {α β : Type}

/-- Two outcomes of one part of lowering: the same one, the second at the new positions. -/
inductive Outcomes (move : Move) (convert : α → α) :
    Except Diagnostic (α × State) → Except Diagnostic (α × State) → Prop where
  /-- Both go on. -/
  | ok (value : α) (state : State) :
      Outcomes move convert (.ok (value, state)) (.ok (convert value, state.moved move))
  /-- Both are refused. -/
  | error {diagnostic other : Diagnostic} (alike : diagnostic.Alike move other) :
      Outcomes move convert (.error diagnostic) (.error other)

/-- With its scopes at other positions, one part of lowering does what another one does. -/
def Tracks (move : Move) (convert : α → α) (first second : Build α) : Prop :=
  ∀ state, Outcomes move convert (first state) (second (state.moved move))

namespace Tracks

variable {convert : α → α} {first second : Build α}

theorem pure (value : α) : Tracks move convert (Pure.pure value) (Pure.pure (convert value)) :=
  fun state => .ok value state

theorem bind {convert' : β → β} {next later : α → Build β}
    (tracks : Tracks move convert first second)
    (goesOn : ∀ value, Tracks move convert' (next value) (later (convert value))) :
    Tracks move convert' (first >>= next) (second >>= later) := by
  intro state
  have both := tracks state
  simp only [Bind.bind, StateT.bind, Except.bind]
  generalize first state = left at both
  generalize second (state.moved move) = right at both
  cases both with
  | ok value middle => exact goesOn value middle
  | error alike => exact .error alike

theorem map {convert' : β → β} {change : α → β} (tracks : Tracks move convert first second)
    (commutes : ∀ value, change (convert value) = convert' (change value)) :
    Tracks move convert' (change <$> first) (change <$> second) := by
  rw [map_eq_pure_bind, map_eq_pure_bind]
  refine tracks.bind fun value => ?_
  rw [commutes]
  exact pure (change value)

theorem ite {test : Prop} [Decidable test] {other another : Build α}
    (chosen : Tracks move convert first second) (rejected : Tracks move convert other another) :
    Tracks move convert (if test then first else other) (if test then second else another) := by
  split
  · exact chosen
  · exact rejected

theorem mapM {items : List β} {change : β → β} {step step' : β → Build α}
    (each : ∀ item ∈ items, Tracks move convert (step item) (step' (change item))) :
    Tracks move (List.map convert) (items.mapM step) ((items.map change).mapM step') := by
  induction items with
  | nil => exact pure []
  | cons item rest ih =>
      rw [List.map_cons, List.mapM_cons, List.mapM_cons]
      exact (each item List.mem_cons_self).bind fun _ =>
        (ih fun other member => each other (List.mem_cons_of_mem _ member)).bind fun _ => pure _

theorem optional {item : Option β} {change : β → β} {step step' : β → Build α}
    (each : ∀ value, Tracks move convert (step value) (step' (change value))) :
    Tracks move (Option.map convert) (item.mapM step) ((item.map change).mapM step') := by
  cases item with
  | none => exact pure none
  | some value => exact (each value).map fun _ => rfl

theorem get : Tracks move (State.moved move) MonadState.get MonadState.get :=
  fun state => .ok state state

theorem lost (what : Bytes) : Tracks move convert (Lowering.lost what) (Lowering.lost what) :=
  fun _ => .error ⟨rfl, rfl, .inl rfl⟩

theorem tableAt (context : Context) :
    Tracks move (ScopeTable.moved move) (Lowering.tableAt context) (Lowering.tableAt context) := by
  refine get.bind fun state => ?_
  have stops : ∀ what, Tracks move id (Lowering.lost what : Build PUnit) (Lowering.lost what) :=
    lost
  rw [show (state.moved move).table.records.length = state.table.records.length from
    List.length_map ..]
  exact .ite ((stops _).bind fun _ => pure state.table) (pure state.table)

theorem refuse (context : Context) (position : Position) (fault : LoweringFault) :
    Tracks move convert (Lowering.refuse context position fault)
      (Lowering.refuse context (move position) fault) :=
  (tableAt context).bind fun _ _ => .error ⟨rfl, rfl, .inr rfl⟩

/-- A check that refuses. -/
theorem guard {test : Prop} [Decidable test] {context : Context} {position : Position}
    {fault : LoweringFault} {skipped skipped' : PUnit → Build α}
    (tracks : Tracks move convert first second) :
    Tracks move convert (if test then Lowering.refuse context position fault >>= skipped else first)
      (if test then Lowering.refuse context (move position) fault >>= skipped' else second) := by
  refine .ite (fun state => ?_) tracks
  have both := @refuse move PUnit id context position fault state
  simp only [Bind.bind, StateT.bind, Except.bind]
  cases refused : Lowering.refuse (α := PUnit) context position fault state with
  | ok outcome => exact absurd refused Build.refuse_ok
  | error diagnostic =>
      rw [refused] at both
      generalize Lowering.refuse (α := PUnit) context (move position) fault (state.moved move) =
        right at both
      cases both with
      | error alike => exact .error alike

theorem onTable {context : Context} {step step' : ScopeTable → Except Diagnostic (α × ScopeTable)}
    (tracks : ∀ table, ScopeTable.Outcomes move convert (step table) (step' (table.moved move))) :
    Tracks move convert (Lowering.onTable context step) (Lowering.onTable context step') := by
  refine (tableAt context).bind fun table state => ?_
  have both := tracks table
  generalize step table = left at both
  generalize step' (table.moved move) = right at both
  cases both with
  | ok value after => exact .ok value { state with table := after }
  | error alike => exact .error alike

theorem openScope (context : Context) (kind : ScopeKind) (label : Bytes) :
    Tracks move id (Lowering.openScope context kind label)
      (Lowering.openScope context kind label) := by
  refine onTable fun table => ?_
  rw [ScopeTable.child_moved]
  exact .ok _ _

theorem inScope {context : Context} {kind : ScopeKind} {label : Bytes}
    {body body' : Context → Build Unit}
    (tracks : ∀ inner, Tracks move id (body inner) (body' inner)) :
    Tracks move id (Lowering.inScope context kind label body)
      (Lowering.inScope context kind label body') :=
  (openScope context kind label).bind fun inner => tracks inner

end Tracks

section Primitives

/-! The steps that leave the scopes alone. -/

theorem tracks_emit (instr : Instr) : Tracks move id (emit instr) (emit instr) := fun _ => .ok _ _

theorem tracks_freshTemp (type : BasicType) : Tracks move id (freshTemp type) (freshTemp type) :=
  fun _ => .ok _ _

theorem tracks_newConstant (constant : Constant) :
    Tracks move id (newConstant constant) (newConstant constant) := fun _ => .ok _ _

theorem tracks_newString (content : Bytes) :
    Tracks move id (newString content) (newString content) :=
  fun _ => .ok _ _

theorem tracks_newBlock (label : Bytes) : Tracks move id (newBlock label) (newBlock label) :=
  fun _ => .ok _ _

theorem tracks_enter (name : BlockName) : Tracks move id (enter name) (enter name) :=
  fun _ => .ok _ _

theorem tracks_isOpen : Tracks move id isOpen isOpen := fun _ => .ok _ _

theorem tracks_jump (target : BlockName) : Tracks move id (jump target) (jump target) :=
  fun _ => .ok _ _

theorem tracks_branch (condition : Value) (ifTrue ifFalse : BlockName) :
    Tracks move id (branch condition ifTrue ifFalse) (branch condition ifTrue ifFalse) :=
  fun _ => .ok _ _

theorem tracks_newSlot (type : BasicType) (name : Bytes) :
    Tracks move id (newSlot type name) (newSlot type name) := fun _ => .ok _ _

theorem tracks_beginFunction (function : Function) :
    Tracks move id (beginFunction function) (beginFunction function) := fun _ => .ok _ _

theorem tracks_jumpIfOpen (target : BlockName) :
    Tracks move id (jumpIfOpen target) (jumpIfOpen target) :=
  tracks_isOpen.bind fun _ => .ite (tracks_jump target) (.pure ())

theorem tracks_openBlock : Tracks move id openBlock openBlock :=
  tracks_isOpen.bind fun _ => .ite ((tracks_newBlock "dead").bind fun name => tracks_enter name)
    (.pure ())

theorem tracks_noValue : Tracks move id noValue noValue :=
  (tracks_freshTemp .void).bind fun _ => .pure _

theorem tracks_zeroValue (type : BasicType) : Tracks move id (zeroValue type) (zeroValue type) := by
  cases type with
  | string => exact tracks_newString []
  | _ => exact tracks_newConstant _

theorem tracks_holdValue (symbol : Symbol) (type : BasicType) (value : Value) :
    Tracks move id (holdValue symbol type value) (holdValue (symbol.moved move) type value) :=
  (tracks_newSlot type symbol.name).bind fun slot => (tracks_emit (.store (.slot slot) value)).bind
    fun _ _ => .ok _ _

theorem tracks_slotOf (symbol : Symbol) :
    Tracks move id (slotOf symbol) (slotOf (symbol.moved move)) := by
  refine Tracks.get.bind fun state => ?_
  simp only [State.moved, Symbol.moved]
  cases state.slots.find? fun entry => entry.1 == (symbol.context, symbol.index) with
  | some entry => exact .pure entry.2
  | none => exact .lost _

theorem tracks_loadSlot (slot : Place) : Tracks move id (loadSlot slot) (loadSlot slot) :=
  fun _ => .ok _ _

end Primitives

section Expressions

variable {context : Context}

theorem tracks_resultType (identifier : Identifier) :
    Tracks move id (resultType context identifier)
      (resultType context (identifier.moved move)) := by
  unfold resultType
  rw [Identifier.name_moved]
  cases BasicType.ofName? identifier.name with
  | some type => exact .pure _
  | none => exact .refuse _ _ _

theorem tracks_valueType (identifier : Identifier) :
    Tracks move id (valueType context identifier) (valueType context (identifier.moved move)) :=
  (tracks_resultType identifier).bind fun _ => .guard (.pure _)

theorem tracks_lookupVariable (identifier : Identifier) :
    Tracks move (Symbol.moved move) (lookupVariable context identifier)
      (lookupVariable context (identifier.moved move)) := by
  have resolves : Tracks move (Symbol.moved move)
      (onTable context fun table => table.resolve context identifier.name identifier.first)
      (onTable context fun table => table.resolve context identifier.name
        (move identifier.first)) :=
    .onTable fun _ => ScopeTable.resolve_moved
  exact resolves.bind fun symbol => .guard (.pure symbol)

theorem tracks_applyBinary (operator : TokenKind) (lexeme : Bytes) (position : Position)
    (left right : Value) :
    Tracks move id (applyBinary context operator lexeme position left right)
      (applyBinary context operator lexeme (move position) left right) := by
  refine .guard ?_
  cases binaryOpcode? left.type operator with
  | none => exact .refuse _ _ _
  | some opcode =>
      exact (tracks_freshTemp _).bind fun _ => (tracks_emit _).bind fun _ => .pure _

theorem tracks_applyUnary (operator : Token) (operand : Value) :
    Tracks move id (applyUnary context operator operand)
      (applyUnary context (operator.moved move) operand) := by
  unfold applyUnary
  rw [Token.kind_moved, Token.lexeme_moved]
  cases unaryOpcode? operand.type operator.kind with
  | none => exact .refuse _ _ _
  | some opcode =>
      exact (tracks_freshTemp _).bind fun _ => (tracks_emit _).bind fun _ => .pure _

theorem tracks_requireTruth (operator : Token) (place : Position) (value : Value) :
    Tracks move id (requireTruth context operator place value)
      (requireTruth context (operator.moved move) (move place) value) :=
  .ite (.refuse _ _ _) (.pure _)

theorem tracks_lowerLogical (operator : Token) (place : Position) (first : Value)
    {right right' : Build Value} (tracks : Tracks move id right right') :
    Tracks move id (lowerLogical context operator place first right)
      (lowerLogical context (operator.moved move) (move place) first right') := by
  have branches : ∀ (conjunction : Bool) (rest done : BlockName),
      Tracks move id (branchLogical conjunction first rest done)
        (branchLogical conjunction first rest done) := by
    intro conjunction rest done
    cases conjunction <;> exact tracks_branch _ _ _
  exact (tracks_newSlot _ _).bind fun _ => (tracks_emit _).bind fun _ =>
    (tracks_newBlock _).bind fun _ => (tracks_newBlock _).bind fun _ =>
      (branches _ _ _).bind fun _ =>
    (tracks_enter _).bind fun _ => tracks.bind fun _ =>
      (tracks_requireTruth operator _ _).bind fun _ =>
    (tracks_emit _).bind fun _ => (tracks_jump _).bind fun _ => (tracks_enter _).bind fun _ =>
    tracks_loadSlot _

theorem tracks_storeVariable (symbol : Symbol) (slot : Place) (place : Position) (value : Value) :
    Tracks move id (storeVariable context symbol slot place value)
      (storeVariable context (symbol.moved move) slot (move place) value) :=
  .guard ((tracks_emit _).bind fun _ => .pure _)

theorem tracks_resolveCallee (callee : Identifier) :
    Tracks move id (resolveCallee context callee) (resolveCallee context (callee.moved move)) := by
  refine (Tracks.tableAt context).bind fun table => ?_
  have both := @ScopeTable.resolve_moved move table context callee.name callee.first
  rw [Identifier.name_moved, Identifier.first_moved]
  generalize table.resolve context callee.name callee.first = left at both
  generalize (table.moved move).resolve context callee.name (move callee.first) = right at both
  cases both with
  | error alike =>
      dsimp only
      split
      · exact .pure _
      · exact fun _ => .error alike
  | ok symbol after =>
      dsimp only
      have placed : Tracks move id (modify fun state => { state with table := after } : Build PUnit)
          (modify fun state => { state with table := after.moved move }) := fun _ => .ok _ _
      refine placed.bind fun _ => ?_
      rw [show (symbol.moved move).type = symbol.type from rfl]
      cases symbol.type >>= Ty.signature? with
      | none => exact .refuse _ _ _
      | some signature => exact .pure _

theorem tracks_emitPrint (place : Position) (value : Value) :
    Tracks move id (emitPrint context place value) (emitPrint context (move place) value) := by
  unfold emitPrint
  cases printFormat? value.type with
  | none => exact .refuse _ _ _
  | some format =>
      have declares : Tracks move id (modify fun state =>
          { state with externals := declareExternal state.externals formatter } : Build PUnit)
          (modify fun state =>
            { state with externals := declareExternal state.externals formatter }) :=
              fun _ => .ok _ _
      exact declares.bind fun _ => (tracks_newString _).bind fun _ => (tracks_emit _).bind fun _ =>
        tracks_noValue

theorem tracks_emitCall (name : Bytes) (signature : Signature) (arguments : List Value) :
    Tracks move id (emitCall name signature arguments) (emitCall name signature arguments) :=
  .ite ((tracks_emit _).bind fun _ => tracks_noValue)
    ((tracks_freshTemp _).bind fun _ => (tracks_emit _).bind fun _ => .pure _)

theorem tracks_lowerLiteral (value : Literal) :
    Tracks move id (lowerLiteral value) (lowerLiteral value) := by
  cases value with
  | string content => exact tracks_newString _
  | _ => exact tracks_newConstant _

theorem tracks_lowerAssignment (target : Identifier) (operator : Token) (value : Expr)
    (inner : Tracks move id (lowerExpr context value) (lowerExpr context (value.moved move))) :
    Tracks move id (lowerExpr context (.assignment target operator value))
      (lowerExpr context ((Expr.assignment target operator value).moved move)) := by
  rw [Expr.moved, lowerExpr, lowerExpr]
  refine (tracks_lookupVariable target).bind fun symbol =>
    .guard ((tracks_slotOf symbol).bind fun slot => inner.bind fun assigned => ?_)
  rw [Token.kind_moved, Expr.first_moved, Token.lexeme_moved]
  cases compoundOperator? operator.kind with
  | none => exact tracks_storeVariable _ _ _ _
  | some arithmetic =>
      exact (tracks_loadSlot _).bind fun _ => (tracks_applyBinary _ _ _ _ _).bind fun _ =>
        tracks_storeVariable _ _ _ _

theorem tracks_lowerCall (callee : Identifier) (arguments : List Expr) (closing : Token)
    (single : ∀ argument ∈ arguments,
      Tracks move id (lowerExpr context argument) (lowerExpr context (argument.moved move)))
    (several : ∀ name types, Tracks move id (lowerArguments context name 1 types arguments)
      (lowerArguments context name 1 types (arguments.map (Expr.moved move)))) :
    Tracks move id (lowerExpr context (.call callee arguments closing))
      (lowerExpr context ((Expr.call callee arguments closing).moved move)) := by
  rw [Expr.moved, Expr.movedAll_eq]
  unfold lowerExpr
  refine (tracks_resolveCallee callee).bind fun target => ?_
  cases target with
  | declared name signature =>
      dsimp only [id]
      rw [List.length_map]
      exact .guard ((several name _).bind fun _ => tracks_emitCall _ _ _)
  | print =>
      rcases arguments with _ | ⟨argument, _ | ⟨second, others⟩⟩
      · exact .refuse _ _ _
      · refine (single argument List.mem_cons_self).bind fun value => ?_
        rw [Expr.first_moved]
        exact tracks_emitPrint _ _
      · dsimp only [id, List.map_cons]
        rw [List.length_cons, List.length_cons, List.length_map]
        exact .refuse _ _ _

mutual

/-- Lowering an expression does not look at positions. -/
theorem tracks_lowerExpr (expression : Expr) :
    Tracks move id (lowerExpr context expression) (lowerExpr context (expression.moved move)) := by
  match expression with
  | .literal _ value =>
      rw [Expr.moved, lowerExpr, lowerExpr]
      exact tracks_lowerLiteral value
  | .variable identifier =>
      rw [Expr.moved, lowerExpr, lowerExpr]
      exact (tracks_lookupVariable identifier).bind fun symbol => (tracks_slotOf symbol).bind
        fun slot => tracks_loadSlot slot
  | .group _ inner _ =>
      rw [Expr.moved, lowerExpr, lowerExpr]
      exact tracks_lowerExpr inner
  | .binary left operator right =>
      rw [Expr.moved, lowerExpr, lowerExpr]
      exact (tracks_lowerExpr left).bind fun _ => (tracks_lowerExpr right).bind fun _ =>
        tracks_applyBinary _ _ _ _ _
  | .logical left operator right =>
      rw [Expr.moved, lowerExpr, lowerExpr, Expr.first_moved, Expr.first_moved]
      exact (tracks_lowerExpr left).bind fun _ => (tracks_requireTruth operator _ _).bind fun _ =>
        tracks_lowerLogical operator _ _ (tracks_lowerExpr right)
  | .unary operator operand =>
      rw [Expr.moved, lowerExpr, lowerExpr]
      exact (tracks_lowerExpr operand).bind fun _ => tracks_applyUnary _ _
  | .assignment target operator value =>
      exact tracks_lowerAssignment target operator value (tracks_lowerExpr value)
  | .call callee arguments closing =>
      exact tracks_lowerCall callee arguments closing (fun argument _ => tracks_lowerExpr argument)
        fun _ _ => tracks_lowerArguments arguments
termination_by sizeOf expression

/-- Lowering arguments does not look at positions. -/
theorem tracks_lowerArguments (arguments : List Expr) {name : Bytes} {number : Nat}
    {types : List BasicType} :
    Tracks move id (lowerArguments context name number types arguments)
      (lowerArguments context name number types (arguments.map (Expr.moved move))) := by
  match types, arguments with
  | wanted :: types, argument :: arguments =>
      rw [List.map_cons, lowerArguments, lowerArguments]
      refine (tracks_lowerExpr argument).bind fun _ => ?_
      rw [Expr.first_moved]
      exact .guard ((tracks_lowerArguments arguments).bind fun _ => .pure _)
  | [], arguments =>
      have done : ∀ arguments, lowerArguments context name number [] arguments = pure [] := by
        intro arguments
        unfold lowerArguments
        rfl
      rw [done, done]
      exact .pure _
  | _ :: _, [] =>
      rw [List.map_nil]
      unfold lowerArguments
      exact .pure _
termination_by sizeOf arguments

end

end Expressions

end Lowering

end ScriptCompiler
