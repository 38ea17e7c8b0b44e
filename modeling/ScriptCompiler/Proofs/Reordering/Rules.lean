import ScriptCompiler.Proofs.Reordering.Modules

/-!
# The static rules and the order of functions

The rules look at an environment through the names that it knows.  So a program stays well formed
when its functions are put in another order.
-/

namespace ScriptCompiler.Statics

open Semantics

variable {env env' outer outer' : Env}

/-- Names denote the same in both environments. -/
def Env.Agrees (env env' : Env) : Prop := ∀ name, env'.find? name = env.find? name

theorem Env.Agrees.cons (agrees : env.Agrees env') (scope : Scope) :
    Env.Agrees (scope :: env) (scope :: env') := by
  intro name
  simp only [Env.find?, List.findSome?_cons]
  cases scope.lookup name with
  | some denoted => rfl
  | none => exact agrees name

mutual

/-- Expressions have the same types in environments that agree. -/
theorem HasType.agree (agrees : env.Agrees env') {expression : Expr} {type : BasicType} :
    HasType env expression type → HasType env' expression type
  | .literal => .literal
  | .variable known => .variable ((agrees _).trans known)
  | .group inner => .group (inner.agree agrees)
  | .binary left right combines => .binary (left.agree agrees) (right.agree agrees) combines
  | .logical left right => .logical (left.agree agrees) (right.agree agrees)
  | .unary operand turns => .unary (operand.agree agrees) turns
  | .assignment known value plain => .assignment ((agrees _).trans known) (value.agree agrees) plain
  | .compound known value operator combines =>
      .compound ((agrees _).trans known) (value.agree agrees) operator combines
  | .call known arguments => .call ((agrees _).trans known) (arguments.agree agrees)
  | .print absent isOutput argument notVoid =>
      .print ((agrees _).trans absent) isOutput (argument.agree agrees) notVoid

theorem HaveTypes.agree (agrees : env.Agrees env') {expressions : List Expr}
    {types : List BasicType} :
    HaveTypes env expressions types → HaveTypes env' expressions types
  | .nil => .nil
  | .cons first rest => .cons (first.agree agrees) (rest.agree agrees)

end

theorem Introduces.agree (agrees : env.Agrees env') {declaration : VarDecl} {type : BasicType}
    (introduces : Introduces env declaration type) : Introduces env' declaration type :=
  ⟨introduces.annotated,
    fun expression member => (introduces.initialised expression member).agree agrees,
    introduces.notVoid, introduces.given⟩

theorem Starts.agree (agrees : outer.Agrees outer') {start : Option LoopStart} {header : Scope}
    (starts : Starts outer start header) : Starts outer' start header := by
  cases starts with
  | nothing => exact .nothing
  | «variable» introduces => exact .variable (introduces.agree (agrees.cons []))
  | expression typed => exact .expression (typed.agree (agrees.cons []))

mutual

/-- Statements are well formed alike inside environments that agree. -/
theorem Admits.agree {result : BasicType} {inLoop : Bool} {outer outer' : Env} {own last : Scope}
    {statement : Stmt} (agrees : outer.Agrees outer') :
    Admits result inLoop outer own statement last → Admits result inLoop outer' own statement last
  | .expression typed => .expression (typed.agree (agrees.cons own))
  | .variable introduces fresh => .variable (introduces.agree (agrees.cons own)) fresh
  | .block body => .block (body.agree (agrees.cons own))
  | .when condition consequent =>
      .when (condition.agree (agrees.cons own)) (consequent.agree (agrees.cons own))
  | .choice condition consequent alternative =>
      .choice (condition.agree (agrees.cons own)) (consequent.agree (agrees.cons own))
        (alternative.agree agrees)
  | .loop starts condition advance body =>
      .loop (starts.agree (agrees.cons own))
        (fun test member => (condition test member).agree ((agrees.cons own).cons _))
        (fun expression member => (advance expression member).imp fun _ typed =>
          typed.agree ((agrees.cons own).cons _))
        (body.agree ((agrees.cons own).cons _))
  | .leave void => .leave void
  | .return_ typed notVoid => .return_ (typed.agree (agrees.cons own)) notVoid
  | .break_ => .break_
  | .continue_ => .continue_

theorem AdmitsAll.agree {result : BasicType} {inLoop : Bool} {outer outer' : Env} {own last : Scope}
    {statements : List Stmt} (agrees : outer.Agrees outer') :
    AdmitsAll result inLoop outer own statements last →
      AdmitsAll result inLoop outer' own statements last
  | .nil => .nil
  | .cons first rest => .cons (first.agree agrees) (rest.agree agrees)

end

theorem AdmitsFunction.agree (agrees : outer.Agrees outer') {declaration : FunctionDecl}
    (admits : AdmitsFunction outer declaration) : AdmitsFunction outer' declaration :=
  ⟨admits.params, admits.body.imp fun _ body => body.agree agrees⟩

section Programs

variable {options : EntryOptions} {stem : Bytes} {program program' : Program}

theorem Scope.lookup_eq (scope : Scope) (name : Bytes) :
    scope.lookup name = (scope.find? fun entry => entry.1 == name).map Prod.snd := by
  induction scope with
  | nil => rfl
  | cons entry rest ih =>
      rw [List.lookup_cons, List.find?_cons, Bool.beq_comm (a := name)]
      cases entry.1 == name with
      | true => rfl
      | false => exact ih

/-- The order of functions does not matter to the scope of a program. -/
theorem globals_agree (perm : program.functions.Perm program'.functions)
    (distinct : (program.functions.map fun declaration => declaration.name.name).Nodup) :
    Env.Agrees [globals program] [globals program'] := by
  intro name
  have names : ((globals program).map Prod.fst).Nodup := by
    rw [globals, List.map_map]
    exact distinct
  have same := Lowering.find?_name_of_perm (perm.map fun declaration =>
    (declaration.name.name, Denoted.function (signature declaration))) names name
  simp only [Env.find?, List.findSome?_cons, List.findSome?_nil, Scope.lookup_eq, globals, same]

/-- **A program stays well formed when its functions are put in another order.** -/
theorem WellFormed.reorder (wellFormed : WellFormed options stem program)
    (statements : program'.statements = program.statements)
    (perm : program.functions.Perm program'.functions) : WellFormed options stem program' := by
  have agrees := globals_agree perm wellFormed.distinct
  have back : ∀ declaration ∈ program'.functions, declaration ∈ program.functions :=
    fun declaration => perm.mem_iff.mpr
  constructor
  case distinct => exact (perm.map _).nodup_iff.mp wellFormed.distinct
  case annotated =>
    exact fun declaration member => wellFormed.annotated declaration (back declaration member)
  case bodies =>
    exact fun declaration member plain =>
      (wellFormed.bodies declaration (back declaration member) plain).agree agrees
  case entry =>
    intro declaration member entry
    obtain ⟨top, admits, function⟩ := wellFormed.entry declaration (back declaration member) entry
    exact ⟨top, statements ▸ admits.agree agrees, function.agree (agrees.cons top)⟩
  case topLevel =>
    intro none
    obtain ⟨free, top, admits⟩ := wellFormed.topLevel fun declaration member =>
      none declaration (perm.mem_iff.mp member)
    exact ⟨fun declaration member => free declaration (back declaration member), top,
      statements ▸ admits.agree agrees⟩

end Programs

end ScriptCompiler.Statics
