import ScriptCompiler.Proofs.Reordering.Twins

/-!
# Lowering on both sides

An expression or statement that is lowered from twins leaves twins behind, with values that differ
in the places of string constants only.
-/

namespace ScriptCompiler.Lowering

open IR Build

variable {comparison : Comparison} {context context' : Nat} {contexts contexts' : List Nat}
  {state state' last last' : State} {value value' : Value}

section Expressions

/-- Both sides yield the same value in twins. -/
structure SameValue (comparison : Comparison) (contexts contexts' : List Nat) (value value' : Value)
    (last last' : State) : Prop where
  /-- The states are twins. -/
  twin : Twin comparison contexts contexts' last last'
  /-- The values differ in the places of string constants only. -/
  value_eq : value' = value.relocated comparison.place

section Steps

variable (twin : Twin comparison (context :: contexts) (context' :: contexts') state state')
include twin

/-- A variable is kept in the same slot on both sides. -/
theorem Twin.slot_eq {name : Bytes} {found found' : Symbol} {slot slot' : Place}
    (finds : state.table.find? context name = some found) (kind : found.kind ≠ .function)
    (held : state.slot? found = some slot)
    (finds' : state'.table.find? context' name = some found') (kind' : found'.kind ≠ .function)
    (held' : state'.slot? found' = some slot') : slot' = slot := by
  have same := congrFun twin.meaning?_eq name
  simp only [State.meaning?, finds, finds', Option.map_some, State.meaning, kind, kind', if_false,
    held, held', Option.getD_some, Option.some.injEq, Meaning.variable.injEq] at same
  exact same

theorem twin_applyBinary {operator : TokenKind} {lexeme : Bytes} {position : Position}
    {left right left' right' : Value} (first : left' = left.relocated comparison.place)
    (second : right' = right.relocated comparison.place)
    (run : applyBinary context operator lexeme position left right state = .ok (value, last))
    (run' : applyBinary context' operator lexeme position left' right' state' =
      .ok (value', last')) :
    SameValue comparison (context :: contexts) (context' :: contexts') value value' last last' := by
  obtain ⟨-, opcode, found, dest, rfl, rfl, rfl⟩ := applyBinary_ok run
  obtain ⟨-, opcode', found', dest', rfl, rfl, rfl⟩ := applyBinary_ok run'
  rw [first, Value.type_relocated] at found'
  obtain rfl := Option.some.inj (found.symm.trans found')
  rw [twin.nextId, first, second, Value.type_relocated]
  exact ⟨twin.define rfl, rfl⟩

theorem twin_applyUnary {operator : Token} {operand operand' : Value}
    (same : operand' = operand.relocated comparison.place)
    (run : applyUnary context operator operand state = .ok (value, last))
    (run' : applyUnary context' operator operand' state' = .ok (value', last')) :
    SameValue comparison (context :: contexts) (context' :: contexts') value value' last last' := by
  obtain ⟨opcode, found, dest, rfl, rfl, rfl⟩ := applyUnary_ok run
  obtain ⟨opcode', found', dest', rfl, rfl, rfl⟩ := applyUnary_ok run'
  rw [same, Value.type_relocated] at found'
  obtain rfl := Option.some.inj (found.symm.trans found')
  rw [twin.nextId, same, Value.type_relocated]
  exact ⟨twin.define rfl, rfl⟩

omit context context' contexts contexts' twin in
/-- The right operand of a logical operator begins behind the same code. -/
theorem Twin.beginLogical {contexts contexts' : List Nat}
    (twin : Twin comparison contexts contexts' state state') (operator : Token)
    {first first' : Value} (same : first' = first.relocated comparison.place) :
    Twin comparison contexts contexts' (state.beginLogical operator first)
        (state'.beginLogical operator first') ∧
      state'.logicalEnd operator first' = state.logicalEnd operator first := by
  have slots : state'.logicalSlot operator = state.logicalSlot operator := by
    rw [State.logicalSlot, twin.nextId]
    rfl
  have kept : Twin comparison contexts contexts' (state.keep (state.logicalSlot operator) first)
      (state'.keep (state'.logicalSlot operator) first') := by
    rw [slots]
    exact twin.keep _ same
  have made := (kept.addBlock ((logicalName operator).2 ++ ".rhs")).addBlock
    ((logicalName operator).2 ++ ".end")
  have rest := kept.blockName ((logicalName operator).2 ++ ".rhs")
  have done := (kept.addBlock ((logicalName operator).2 ++ ".rhs")).blockName
    ((logicalName operator).2 ++ ".end")
  refine ⟨?_, ?_⟩
  · dsimp only [State.beginLogical]
    split
    · exact (made.branch same rest done).enter rest
    · exact (made.branch same done rest).enter rest
  · exact done

end Steps

/-- Both sides lower an expression alike. -/
def ExprAlike (comparison : Comparison) (context context' : Nat) (contexts contexts' : List Nat)
    (expression : Expr) : Prop :=
  ∀ (state state' last last' : State) (value value' : Value),
    Twin comparison (context :: contexts) (context' :: contexts') state state' →
    lowerExpr context expression state = .ok (value, last) →
    lowerExpr context' expression state' = .ok (value', last') →
    last.strings <+: comparison.texts → last'.strings <+: comparison.texts' →
    SameValue comparison (context :: contexts) (context' :: contexts') value value' last last'

/-- Both sides lower arguments alike. -/
def ArgumentsAlike (comparison : Comparison) (context context' : Nat)
    (contexts contexts' : List Nat) (arguments : List Expr) : Prop :=
  ∀ (name : Bytes) (number : Nat) (types : List BasicType) (state state' last last' : State)
    (values values' : List Value),
    Twin comparison (context :: contexts) (context' :: contexts') state state' →
    arguments.length = types.length →
    lowerArguments context name number types arguments state = .ok (values, last) →
    lowerArguments context' name number types arguments state' = .ok (values', last') →
    last.strings <+: comparison.texts → last'.strings <+: comparison.texts' →
    Twin comparison (context :: contexts) (context' :: contexts') last last' ∧
      values' = values.map (Value.relocated comparison.place)

theorem State.strings_invoke {name : Bytes} {result : BasicType} {arguments : List Value} :
    (state.invoke name result arguments).strings = state.strings := by
  unfold State.invoke
  split <;> rfl

theorem strings_print {format : Bytes} :
    Enlarges state.strings (state.print format value).strings := by
  have grows := lengthens_newString format state.addFormatter _ _ (newString_ok.mpr rfl)
  exact grows

namespace ExprAlike

theorem literal {token : Token} {content : Literal} :
    ExprAlike comparison context context' contexts contexts' (.literal token content) := by
  intro state state' last last' value value' twin run run' fits fits'
  rw [lowerExpr] at run run'
  obtain ⟨rfl, rfl⟩ := Prod.mk.inj (lowerLiteral_ok.mp run)
  obtain ⟨rfl, rfl⟩ := Prod.mk.inj (lowerLiteral_ok.mp run')
  obtain ⟨later, same⟩ := twin.literal content fits fits'
  exact ⟨later, same⟩

theorem «variable» {identifier : Identifier} :
    ExprAlike comparison context context' contexts contexts' (.variable identifier) := by
  intro state state' last last' value value' twin run run' fits fits'
  obtain ⟨found, slot, finds, kind, held, rfl, rfl⟩ := lowerExpr_variable_ok run
  obtain ⟨found', slot', finds', kind', held', rfl, rfl⟩ := lowerExpr_variable_ok run'
  obtain rfl := twin.slot_eq finds kind held finds' kind' held'
  rw [twin.nextId]
  exact ⟨(twin.use found found' _ _).load slot', rfl⟩

theorem group {opening closing : Token} {inner : Expr}
    (alike : ExprAlike comparison context context' contexts contexts' inner) :
    ExprAlike comparison context context' contexts contexts' (.group opening inner closing) := by
  intro state state' last last' value value' twin run run' fits fits'
  rw [lowerExpr] at run run'
  exact alike _ _ _ _ _ _ twin run run' fits fits'

theorem binary {left right : Expr} {operator : Token}
    (leftAlike : ExprAlike comparison context context' contexts contexts' left)
    (rightAlike : ExprAlike comparison context context' contexts contexts' right) :
    ExprAlike comparison context context' contexts contexts' (.binary left operator right) := by
  intro state state' last last' value value' twin run run' fits fits'
  obtain ⟨first, middle, second, after, leftRun, rightRun, applied⟩ := lowerExpr_binary_ok run
  obtain ⟨first', middle', second', after', leftRun', rightRun', applied'⟩ :=
    lowerExpr_binary_ok run'
  have fitsRight := (lengthens_applyBinary _ _ _ _ _ _ _ _ applied).within fits
  have fitsRight' := (lengthens_applyBinary _ _ _ _ _ _ _ _ applied').within fits'
  have leftDone := leftAlike _ _ _ _ _ _ twin leftRun leftRun'
    ((lengthens_lowerExpr right _ _ _ rightRun).within fitsRight)
    ((lengthens_lowerExpr right _ _ _ rightRun').within fitsRight')
  have rightDone := rightAlike _ _ _ _ _ _ leftDone.twin rightRun rightRun' fitsRight fitsRight'
  exact twin_applyBinary rightDone.twin leftDone.value_eq rightDone.value_eq applied applied'

theorem logical {left right : Expr} {operator : Token}
    (leftAlike : ExprAlike comparison context context' contexts contexts' left)
    (rightAlike : ExprAlike comparison context context' contexts contexts' right) :
    ExprAlike comparison context context' contexts contexts' (.logical left operator right) := by
  intro state state' last last' value value' twin run run' fits fits'
  obtain ⟨first, middle, leftRun, -, logical⟩ := lowerExpr_logical_ok run
  obtain ⟨first', middle', leftRun', -, logical'⟩ := lowerExpr_logical_ok run'
  have leftDone := leftAlike _ _ _ _ _ _ twin leftRun leftRun'
    ((lengthens_lowerLogical _ _ _ (lengthens_lowerExpr right) _ _ _ logical).within fits)
    ((lengthens_lowerLogical _ _ _ (lengthens_lowerExpr right) _ _ _ logical').within fits')
  obtain ⟨slot, second, after, rfl, rightRun, -, ending, rfl, rfl, rfl⟩ := lowerLogical_ok logical
  obtain ⟨slot', second', after', rfl, rightRun', -, ending', rfl, rfl, rfl⟩ :=
    lowerLogical_ok logical'
  obtain ⟨begins, done⟩ := leftDone.twin.beginLogical operator leftDone.value_eq
  have fitsRight : after.strings <+: comparison.texts := by simpa using fits
  have fitsRight' : after'.strings <+: comparison.texts' := by simpa using fits'
  have rightDone := rightAlike _ _ _ _ _ _ begins rightRun rightRun' fitsRight fitsRight'
  have ends := ((rightDone.twin.store ⟨middle.nextId, (logicalName operator).2, .bool⟩
    rightDone.value_eq).jump done).enter done
  rw [leftDone.twin.nextId, ends.nextId]
  exact ⟨ends.load _, rfl⟩

theorem unary {operator : Token} {operand : Expr}
    (alike : ExprAlike comparison context context' contexts contexts' operand) :
    ExprAlike comparison context context' contexts contexts' (.unary operator operand) := by
  intro state state' last last' value value' twin run run' fits fits'
  obtain ⟨read, middle, operandRun, applied⟩ := lowerExpr_unary_ok run
  obtain ⟨read', middle', operandRun', applied'⟩ := lowerExpr_unary_ok run'
  have operandDone := alike _ _ _ _ _ _ twin operandRun operandRun'
    ((lengthens_applyUnary _ _ _ _ _ applied).within fits)
    ((lengthens_applyUnary _ _ _ _ _ applied').within fits')
  exact twin_applyUnary operandDone.twin operandDone.value_eq applied applied'

theorem assignment {target : Identifier} {operator : Token} {expression : Expr}
    (alike : ExprAlike comparison context context' contexts contexts' expression) :
    ExprAlike comparison context context' contexts contexts'
      (.assignment target operator expression) := by
  intro state state' last last' value value' twin run run' fits fits'
  obtain ⟨found, slot, assigned, middle, finds, kind, held, valueRun, stored⟩ :=
    lowerExpr_assignment_ok run
  obtain ⟨found', slot', assigned', middle', finds', kind', held', valueRun', stored'⟩ :=
    lowerExpr_assignment_ok run'
  obtain rfl := twin.slot_eq finds kind held finds' kind' held'
  have used := twin.use found found' target.name target.name
  rcases stored with ⟨plain, -, rfl, rfl⟩ | ⟨arithmetic, after, compound, applied, -, rfl⟩ <;>
    rcases stored' with ⟨plain', -, rfl, rfl⟩ | ⟨arithmetic', after', compound', applied', -, rfl⟩
  · have done := alike _ _ _ _ _ _ used valueRun valueRun' fits fits'
    exact ⟨done.twin.store slot' done.value_eq, done.value_eq⟩
  · rw [plain] at compound'
    cases compound'
  · rw [plain'] at compound
    cases compound
  · obtain rfl := Option.some.inj (compound.symm.trans compound')
    have done := alike _ _ _ _ _ _ used valueRun valueRun'
      ((lengthens_applyBinary _ _ _ _ _ _ _ _ applied).within fits)
      ((lengthens_applyBinary _ _ _ _ _ _ _ _ applied').within fits')
    rw [done.twin.nextId] at applied'
    have combined := twin_applyBinary (done.twin.load slot') rfl done.value_eq applied applied'
    exact ⟨combined.twin.store slot' combined.value_eq, combined.value_eq⟩

theorem call {callee : Identifier} {arguments : List Expr} {closing : Token}
    (each : ∀ argument ∈ arguments,
      ExprAlike comparison context context' contexts contexts' argument)
    (all : ArgumentsAlike comparison context context' contexts contexts' arguments) :
    ExprAlike comparison context context' contexts contexts' (.call callee arguments closing) := by
  intro state state' last last' value value' twin run run' fits fits'
  rcases lowerExpr_call_ok run with
    ⟨found, signature, values, middle, finds, typed, count, valuesRun, rfl, rfl⟩ |
    ⟨argument, printed, middle, format, absent, -, single, printedRun, formats, rfl, rfl⟩ <;>
  rcases lowerExpr_call_ok run' with
    ⟨found', signature', values', middle', finds', typed', count', valuesRun', rfl, rfl⟩ |
    ⟨argument', printed', middle', format', absent', -, single', printedRun', formats', rfl, rfl⟩
  · obtain ⟨names, means⟩ := twin.nested.idle.wellScoped.function_of_find? finds typed
    obtain ⟨names', means'⟩ := twin.nested'.idle.wellScoped.function_of_find? finds' typed'
    rw [twin.meaning?_eq, means] at means'
    obtain rfl : signature = signature' := by simpa using means'
    have used := twin.use found found' callee.name callee.name
    rw [State.strings_invoke] at fits fits'
    rw [names] at valuesRun ⊢
    rw [names'] at valuesRun' ⊢
    obtain ⟨done, values_eq⟩ := all _ _ _ _ _ _ _ _ _ used count valuesRun valuesRun' fits fits'
    rw [done.nextId]
    exact ⟨done.invoke _ _ values_eq, rfl⟩
  · obtain ⟨-, means⟩ := twin.nested.idle.wellScoped.function_of_find? finds typed
    rw [← twin.meaning?_eq, State.meaning?, absent'] at means
    cases means
  · obtain ⟨-, means'⟩ := twin.nested'.idle.wellScoped.function_of_find? finds' typed'
    rw [twin.meaning?_eq, State.meaning?, absent] at means'
    cases means'
  · rw [single] at single'
    obtain rfl : argument = argument' := (List.cons.inj single').1
    have member : argument ∈ arguments := by simp [single]
    have done := each argument member _ _ _ _ _ _ twin printedRun printedRun'
      (strings_print.within fits) (strings_print.within fits')
    rw [done.value_eq, Value.type_relocated, formats] at formats'
    obtain rfl := Option.some.inj formats'
    rw [done.twin.nextId]
    exact ⟨done.twin.print done.value_eq fits fits', rfl⟩

end ExprAlike

theorem ArgumentsAlike.of_each {arguments : List Expr}
    (each : ∀ argument ∈ arguments,
      ExprAlike comparison context context' contexts contexts' argument) :
    ArgumentsAlike comparison context context' contexts contexts' arguments := by
  induction arguments with
  | nil =>
      intro name number types state state' last last' values values' twin count run run' fits fits'
      obtain rfl : types = [] := List.length_eq_zero_iff.mp count.symm
      unfold lowerArguments at run run'
      obtain ⟨rfl, rfl⟩ := Prod.mk.inj (pure_ok.mp run)
      obtain ⟨rfl, rfl⟩ := Prod.mk.inj (pure_ok.mp run')
      exact ⟨twin, rfl⟩
  | cons argument rest ih =>
      intro name number types state state' last last' values values' twin count run run' fits fits'
      cases types with
      | nil => simp at count
      | cons wanted types =>
          obtain ⟨value, middle, others, valueRun, -, -, othersRun, rfl⟩ :=
            lowerArguments_cons_ok run
          obtain ⟨value', middle', others', valueRun', -, -, othersRun', rfl⟩ :=
            lowerArguments_cons_ok run'
          have grows := lengthens_lowerArguments rest middle last others othersRun
          have grows' := lengthens_lowerArguments rest middle' last' others' othersRun'
          have first := each argument List.mem_cons_self _ _ _ _ _ _ twin valueRun valueRun'
            (grows.within fits) (grows'.within fits')
          obtain ⟨done, others_eq⟩ :=
            ih (fun other member => each other (List.mem_cons_of_mem _ member))
            _ _ _ _ _ _ _ _ _ first.twin (Nat.succ.inj count) othersRun othersRun' fits fits'
          exact ⟨done, by rw [first.value_eq, others_eq]; rfl⟩

mutual

/-- **An expression is lowered alike on both sides.** -/
theorem exprAlike (expression : Expr) :
    ExprAlike comparison context context' contexts contexts' expression :=
  match expression with
  | .literal _ _ => .literal
  | .variable _ => .variable
  | .group _ inner _ => .group (exprAlike inner)
  | .binary left _ right => .binary (exprAlike left) (exprAlike right)
  | .logical left _ right => .logical (exprAlike left) (exprAlike right)
  | .unary _ operand => .unary (exprAlike operand)
  | .assignment _ _ expression => .assignment (exprAlike expression)
  | .call _ arguments _ => .call (exprsAlike arguments) (.of_each (exprsAlike arguments))

/-- Expressions are lowered alike on both sides. -/
theorem exprsAlike (expressions : List Expr) : ∀ expression ∈ expressions,
    ExprAlike comparison context context' contexts contexts' expression :=
  match expressions with
  | [] => fun _ member => (List.not_mem_nil member).elim
  | first :: rest => List.forall_mem_cons.mpr ⟨exprAlike first, exprsAlike rest⟩

end

end Expressions

end ScriptCompiler.Lowering
