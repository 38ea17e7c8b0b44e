import Mathlib.Data.List.Flatten
import ScriptCompiler.Proofs.Syntax.Grammar
import ScriptCompiler.Scope.Symbol

/-!
# Declarations and the names that refer to them

Which scopes a tree has, what each of them declares, and which names are read or assigned to in
sight of which declarations.  A name refers to the nearest declaration in sight; a variable is in
sight behind its declaration, to the end of its scope.  The rules are about trees alone and say
nothing of scope tables.
-/

namespace ScriptCompiler

/-- What a declaration binds to a name, and where it does so. -/
structure Binding where
  /-- What the name stands for. -/
  kind : SymbolKind
  /-- The name. -/
  name : Bytes
  /-- Where it is declared. -/
  position : Position
  deriving DecidableEq, Repr

/-- The binding that an identifier declares. -/
def Identifier.binding (identifier : Identifier) (kind : SymbolKind) : Binding :=
  ⟨kind, identifier.name, identifier.first⟩

/-- The binding of a variable. -/
def VarDecl.binding (declaration : VarDecl) : Binding := declaration.name.binding .variable

/-- The binding of a parameter. -/
def Param.binding (param : Param) : Binding := param.name.binding .parameter

/-- The binding of a function. -/
def FunctionDecl.binding (declaration : FunctionDecl) : Binding :=
  declaration.name.binding .function

/-- The declarations in sight of a place, scope by scope, the innermost first. -/
abbrev Sight := List (List Binding)

/-- What a name refers to: its nearest declaration. -/
def Sight.find? (sight : Sight) (name : Bytes) : Option Binding :=
  sight.findSome? fun scope => scope.find? fun binding => binding.name == name

/-- A name that is read or assigned to, and the declarations in sight of it. -/
structure Mention where
  /-- The declarations in sight. -/
  sight : Sight
  /-- The name. -/
  identifier : Identifier

/-- What the name refers to. -/
def Mention.target (mention : Mention) : Option Binding :=
  mention.sight.find? mention.identifier.name

/-! ### Expressions -/

mutual

/-- The names that an expression reads or assigns to. -/
def Expr.mentioned : Expr → List Identifier
  | .literal _ _ => []
  | .variable identifier => [identifier]
  | .binary left _ right | .logical left _ right => left.mentioned ++ right.mentioned
  | .unary _ operand => operand.mentioned
  | .assignment target _ value => target :: value.mentioned
  | .call _ arguments _ => Expr.allMentioned arguments
  | .group _ inner _ => inner.mentioned

/-- The names that expressions read or assign to. -/
def Expr.allMentioned : List Expr → List Identifier
  | [] => []
  | expression :: rest => expression.mentioned ++ Expr.allMentioned rest

end

/-- Names with the declarations in sight of them. -/
def Sight.see (sight : Sight) (identifiers : List Identifier) : List Mention :=
  identifiers.map fun identifier => ⟨sight, identifier⟩

/-- The names in an optional expression. -/
def Expr.optionMentioned (expression : Option Expr) : List Identifier :=
  (expression.map Expr.mentioned).getD []

/-! ### Statements -/

/-- What the scope of a loop declares before the first round. -/
def LoopStart.adds : Option LoopStart → List Binding
  | some (.variable declaration) => [declaration.binding]
  | some (.expression _) | none => []

/-- The names in what a loop does before its first round. -/
def LoopStart.mentioned : Option LoopStart → List Identifier
  | some (.variable declaration) => Expr.optionMentioned declaration.initial
  | some (.expression statement) => statement.expression.mentioned
  | none => []

/-- What a statement adds to the scope that it stands in. -/
def Stmt.adds : Stmt → List Binding
  | .variable declaration => [declaration.binding]
  | .conditional _ _ _ _ _ (some alternative) => alternative.adds
  | _ => []

mutual

/-- The scopes inside a statement, each with what it declares, in the order in which they begin. -/
def Stmt.scopes : Stmt → List (List Binding)
  | .block _ body _ => body.flatMap Stmt.adds :: Stmt.allScopes body
  | .conditional _ _ _ consequent _ none =>
      consequent.flatMap Stmt.adds :: Stmt.allScopes consequent
  | .conditional _ _ _ consequent _ (some alternative) =>
      consequent.flatMap Stmt.adds :: (Stmt.allScopes consequent ++ alternative.scopes)
  | .loop _ start _ _ _ body _ =>
      LoopStart.adds start :: body.flatMap Stmt.adds :: Stmt.allScopes body
  | .expression _ | .variable _ | .return_ .. | .break_ _ | .continue_ _ | .function _ => []

/-- The scopes inside statements. -/
def Stmt.allScopes : List Stmt → List (List Binding)
  | [] => []
  | statement :: rest => statement.scopes ++ Stmt.allScopes rest

end

mutual

/-- The names in a statement behind `own` declarations of its scope. -/
def Stmt.mentions (outer : Sight) (own : List Binding) : Stmt → List Mention
  | .expression statement => Sight.see (own :: outer) statement.expression.mentioned
  | .variable declaration => Sight.see (own :: outer) (Expr.optionMentioned declaration.initial)
  | .block _ body _ => Stmt.allMentions (own :: outer) [] body
  | .conditional _ condition _ consequent _ none =>
      Sight.see (own :: outer) condition.mentioned ++ Stmt.allMentions (own :: outer) [] consequent
  | .conditional _ condition _ consequent _ (some alternative) =>
      Sight.see (own :: outer) condition.mentioned ++
        (Stmt.allMentions (own :: outer) [] consequent ++
        alternative.mentions outer own)
  | .loop _ start condition advance _ body _ =>
      Sight.see ([] :: own :: outer) (LoopStart.mentioned start) ++
        (Sight.see (LoopStart.adds start :: own :: outer) (Expr.optionMentioned condition) ++
          (Stmt.allMentions (LoopStart.adds start :: own :: outer) [] body ++
            Sight.see (LoopStart.adds start :: own :: outer) (Expr.optionMentioned advance)))
  | .return_ _ value _ => Sight.see (own :: outer) (Expr.optionMentioned value)
  | .break_ _ | .continue_ _ | .function _ => []

/-- The names in statements one after the other, each behind what the ones before it add. -/
def Stmt.allMentions (outer : Sight) (own : List Binding) : List Stmt → List Mention
  | [] => []
  | statement :: rest =>
      statement.mentions outer own ++ Stmt.allMentions outer (own ++ statement.adds) rest

end

mutual

/-- All variables that a statement declares, in the order of the source. -/
def Stmt.variables : Stmt → List Binding
  | .variable declaration => [declaration.binding]
  | .block _ body _ => Stmt.allVariables body
  | .conditional _ _ _ consequent _ none => Stmt.allVariables consequent
  | .conditional _ _ _ consequent _ (some alternative) =>
      Stmt.allVariables consequent ++ alternative.variables
  | .loop _ start _ _ _ body _ => LoopStart.adds start ++ Stmt.allVariables body
  | .expression _ | .return_ .. | .break_ _ | .continue_ _ | .function _ => []

/-- All variables that statements declare, in the order of the source. -/
def Stmt.allVariables : List Stmt → List Binding
  | [] => []
  | statement :: rest => statement.variables ++ Stmt.allVariables rest

end

/-! ### Programs -/

/-- What the scope of a function declares: its parameters and the variables of its body, but for
those in scopes of their own. -/
def FunctionDecl.scope (declaration : FunctionDecl) : List Binding :=
  declaration.params.map Param.binding ++ declaration.body.flatMap Stmt.adds

/-- The scopes of a function in the order in which they begin. -/
def FunctionDecl.scopes (declaration : FunctionDecl) : List (List Binding) :=
  declaration.scope :: Stmt.allScopes declaration.body

/-- The names in the body of a function. -/
def FunctionDecl.mentions (outer : Sight) (declaration : FunctionDecl) : List Mention :=
  Stmt.allMentions outer (declaration.params.map Param.binding) declaration.body

/-- All that a function declares, itself included, in the order of the source. -/
def FunctionDecl.bindings (declaration : FunctionDecl) : List Binding :=
  declaration.binding ::
    (declaration.params.map Param.binding ++ Stmt.allVariables declaration.body)

/-- All that an item declares. -/
def Item.bindings : Item → List Binding
  | .function declaration => declaration.bindings
  | .statement content => content.variables

namespace Program

variable (isEntry : FunctionDecl → Bool) (program : Program)

/-- All that a program declares, in the order of the source. -/
def bindings : List Binding := program.items.flatMap Item.bindings

/-- The functions of a program, which are in sight everywhere. -/
def globals : List Binding := program.functions.map FunctionDecl.binding

/-- What the statements at top level declare in their scope. -/
def topLevel : List Binding := program.statements.flatMap Stmt.adds

/-- The scopes of a program in the order in which they begin.  The statements at top level come
before the body of the program's own entry function, and without one before all functions. -/
def scopes : List (List Binding) :=
  program.globals :: program.topLevel ::
    if program.functions.any isEntry then
      program.functions.flatMap fun declaration =>
        (if isEntry declaration then Stmt.allScopes program.statements else []) ++
          declaration.scopes
    else Stmt.allScopes program.statements ++ program.functions.flatMap FunctionDecl.scopes

/-- The names in a program.  The variables at top level are in sight of the entry function alone. -/
def mentions : List Mention :=
  Stmt.allMentions [program.globals] [] program.statements ++
    program.functions.flatMap fun declaration =>
      declaration.mentions (if isEntry declaration then [program.topLevel, program.globals]
        else [program.globals])

/-- A declaration that a name of the program refers to. -/
def Mentions (binding : Binding) : Prop :=
  ∃ mention ∈ program.mentions isEntry, mention.target = some binding

end Program

/-! ### Each variable belongs to one scope -/

section Partition

theorem perm_interchange {α : Type} (first second third fourth : List α) :
    ((first ++ second) ++ (third ++ fourth)).Perm ((first ++ third) ++ (second ++ fourth)) := by
  simp only [List.append_assoc]
  exact (List.perm_append_comm_assoc second third fourth).append_left first

mutual

/-- What a statement adds to its scope and what its own scopes declare are its variables. -/
theorem Stmt.perm_variables (statement : Stmt) :
    (statement.adds ++ statement.scopes.flatten).Perm statement.variables := by
  match statement with
  | .variable declaration => exact .refl _
  | .block _ body _ => exact Stmt.perm_allVariables body
  | .conditional _ _ _ consequent _ none => exact Stmt.perm_allVariables consequent
  | .conditional _ _ _ consequent _ (some alternative) =>
      simp only [Stmt.adds, Stmt.scopes, Stmt.variables, List.flatten_cons, List.flatten_append]
      rw [← List.append_assoc (List.flatMap _ _)]
      exact (List.perm_append_comm_assoc _ _ _).trans
        ((Stmt.perm_allVariables consequent).append (Stmt.perm_variables alternative))
  | .loop _ start _ _ _ body _ => exact (Stmt.perm_allVariables body).append_left _
  | .expression _ | .return_ .. | .break_ _ | .continue_ _ | .function _ => exact .nil

theorem Stmt.perm_allVariables (statements : List Stmt) :
    (statements.flatMap Stmt.adds ++ (Stmt.allScopes statements).flatten).Perm
      (Stmt.allVariables statements) := by
  match statements with
  | [] => exact .nil
  | statement :: rest =>
      rw [List.flatMap_cons, Stmt.allScopes, List.flatten_append, Stmt.allVariables]
      exact (perm_interchange _ _ _ _).trans
        ((Stmt.perm_variables statement).append (Stmt.perm_allVariables rest))

end

mutual

/-- A scope declares its variables in the order of the source. -/
theorem Stmt.sublist_variables (statement : Stmt) : statement.adds.Sublist statement.variables ∧
    ∀ scope ∈ statement.scopes, scope.Sublist statement.variables := by
  match statement with
  | .variable declaration => exact ⟨.refl _, List.forall_mem_nil _⟩
  | .block _ body _ =>
      exact ⟨List.nil_sublist _, List.forall_mem_cons.mpr (Stmt.sublist_allVariables body)⟩
  | .conditional _ _ _ consequent _ none =>
      exact ⟨List.nil_sublist _, List.forall_mem_cons.mpr (Stmt.sublist_allVariables consequent)⟩
  | .conditional _ _ _ consequent _ (some alternative) =>
      obtain ⟨whole, parts⟩ := Stmt.sublist_allVariables consequent
      obtain ⟨adds, others⟩ := Stmt.sublist_variables alternative
      refine ⟨List.sublist_append_of_sublist_right adds, List.forall_mem_cons.mpr
        ⟨List.sublist_append_of_sublist_left whole, fun scope member => ?_⟩⟩
      rcases List.mem_append.mp member with first | second
      · exact List.sublist_append_of_sublist_left (parts scope first)
      · exact List.sublist_append_of_sublist_right (others scope second)
  | .loop _ start _ _ _ body _ =>
      obtain ⟨whole, parts⟩ := Stmt.sublist_allVariables body
      refine ⟨List.nil_sublist _, List.forall_mem_cons.mpr ⟨List.sublist_append_left _ _,
        List.forall_mem_cons.mpr ⟨List.sublist_append_of_sublist_right whole,
          fun scope member => ?_⟩⟩⟩
      exact List.sublist_append_of_sublist_right (parts scope member)
  | .expression _ | .return_ .. | .break_ _ | .continue_ _ | .function _ =>
      exact ⟨.refl _, List.forall_mem_nil _⟩

theorem Stmt.sublist_allVariables (statements : List Stmt) :
    (statements.flatMap Stmt.adds).Sublist (Stmt.allVariables statements) ∧
      ∀ scope ∈ Stmt.allScopes statements, scope.Sublist (Stmt.allVariables statements) := by
  match statements with
  | [] => exact ⟨.refl _, List.forall_mem_nil _⟩
  | statement :: rest =>
      obtain ⟨adds, parts⟩ := Stmt.sublist_variables statement
      obtain ⟨others, later⟩ := Stmt.sublist_allVariables rest
      refine ⟨adds.append others, fun scope member => ?_⟩
      rcases List.mem_append.mp member with first | second
      · exact List.sublist_append_of_sublist_left (parts scope first)
      · exact List.sublist_append_of_sublist_right (later scope second)

end

theorem FunctionDecl.perm_bindings (declaration : FunctionDecl) :
    (declaration.binding :: declaration.scopes.flatten).Perm declaration.bindings := by
  refine .cons _ ?_
  rw [scopes, scope, List.flatten_cons, List.append_assoc]
  exact (Stmt.perm_allVariables declaration.body).append_left _

theorem FunctionDecl.sublist_bindings (declaration : FunctionDecl) :
    ∀ scope ∈ declaration.scopes, scope.Sublist declaration.bindings := by
  obtain ⟨whole, parts⟩ := Stmt.sublist_allVariables declaration.body
  refine List.forall_mem_cons.mpr ⟨.cons _ (whole.append_left _), fun scope member => ?_⟩
  exact .cons _ (List.sublist_append_of_sublist_right (parts scope member))

/-- Items declare what the statements and the functions among them declare. -/
theorem perm_bindings_of_items (items : List Item) :
    (Stmt.allVariables (items.filterMap Item.statement?) ++
      (items.filterMap Item.function?).flatMap FunctionDecl.bindings).Perm
      (items.flatMap Item.bindings) := by
  induction items with
  | nil => exact .nil
  | cons item items ih =>
      cases item with
      | function declaration => exact (List.perm_append_comm_assoc _ _ _).trans (ih.append_left _)
      | statement content =>
          rw [List.filterMap_cons_some (by rfl), List.filterMap_cons_none (by rfl),
            Stmt.allVariables,
            List.append_assoc]
          exact ih.append_left _

theorem sublist_bindings_of_items (items : List Item) :
    (Stmt.allVariables (items.filterMap Item.statement?)).Sublist (items.flatMap Item.bindings) ∧
      ((items.filterMap Item.function?).flatMap FunctionDecl.bindings).Sublist
        (items.flatMap Item.bindings) := by
  induction items with
  | nil => exact ⟨.refl _, .refl _⟩
  | cons item items ih =>
      obtain ⟨statements, functions⟩ := ih
      cases item with
      | function declaration =>
          exact ⟨List.sublist_append_of_sublist_right statements, functions.append_left _⟩
      | statement content =>
          exact ⟨statements.append_left _, List.sublist_append_of_sublist_right functions⟩

/-- The functions of a program declare themselves and what their scopes hold. -/
theorem perm_bindings_of_functions (functions : List FunctionDecl) :
    (functions.map FunctionDecl.binding ++ (functions.flatMap FunctionDecl.scopes).flatten).Perm
      (functions.flatMap FunctionDecl.bindings) := by
  induction functions with
  | nil => exact .nil
  | cons declaration functions ih =>
      rw [List.map_cons, List.flatMap_cons, List.flatten_append, List.flatMap_cons]
      exact (perm_interchange [declaration.binding] _ _ _).trans
        (declaration.perm_bindings.append ih)

/-- The scopes of statements may stand before those of one of the functions. -/
theorem perm_scopes_of_single {isEntry : FunctionDecl → Bool} {functions : List FunctionDecl}
    (single : functions.Pairwise fun first second => isEntry first = true → isEntry second = false)
    (some : functions.any isEntry = true) (others : List (List Binding)) :
    (functions.flatMap fun declaration =>
      (if isEntry declaration then others else []) ++ declaration.scopes).Perm
      (others ++ functions.flatMap FunctionDecl.scopes) := by
  induction functions with
  | nil => cases some
  | cons declaration functions ih =>
      obtain ⟨apart, single⟩ := List.pairwise_cons.mp single
      rw [List.flatMap_cons, List.flatMap_cons]
      cases entry : isEntry declaration with
      | true =>
          have rest : (functions.flatMap fun declaration =>
              (if isEntry declaration then others else []) ++ declaration.scopes) =
              functions.flatMap FunctionDecl.scopes :=
            List.flatMap_congr fun other member => by rw [apart other member entry]; rfl
          rw [rest, if_pos rfl, List.append_assoc]
      | false =>
          rw [List.any_cons, entry, Bool.false_or] at some
          rw [if_neg Bool.false_ne_true, List.nil_append]
          exact ((ih single some).append_left _).trans (List.perm_append_comm_assoc _ _ _)

namespace Program

open scoped List

variable {isEntry : FunctionDecl → Bool} {program : Program}

/-- The scopes of a program share out what it declares. -/
theorem perm_bindings
    (single : program.functions.Pairwise fun first second =>
      isEntry first = true → isEntry second = false) :
    (program.scopes isEntry).flatten.Perm program.bindings := by
  have inner : (program.scopes isEntry).Perm (program.globals :: program.topLevel ::
      (Stmt.allScopes program.statements ++ program.functions.flatMap FunctionDecl.scopes)) := by
    refine .cons _ (.cons _ ?_)
    split
    · rename_i some
      exact perm_scopes_of_single single some _
    · exact .refl _
  have statements := Stmt.perm_allVariables program.statements
  have functions := perm_bindings_of_functions program.functions
  calc (program.scopes isEntry).flatten
    _ ~ program.globals ++ (program.topLevel ++ ((Stmt.allScopes program.statements).flatten ++
          (program.functions.flatMap FunctionDecl.scopes).flatten)) := by
        simpa only [List.flatten_cons, List.flatten_append] using inner.flatten
    _ ~ (program.topLevel ++ (Stmt.allScopes program.statements).flatten) ++
          (program.globals ++ (program.functions.flatMap FunctionDecl.scopes).flatten) := by
        rw [← List.append_assoc program.topLevel]
        exact List.perm_append_comm_assoc _ _ _
    _ ~ Stmt.allVariables program.statements ++ program.functions.flatMap FunctionDecl.bindings :=
        statements.append functions
    _ ~ program.bindings := perm_bindings_of_items program.items

/-- Every scope of a program declares its names in the order of the source. -/
theorem sublist_bindings : ∀ scope ∈ program.scopes isEntry, scope.Sublist program.bindings := by
  obtain ⟨inStatements, inFunctions⟩ := sublist_bindings_of_items program.items
  obtain ⟨topLevel, parts⟩ := Stmt.sublist_allVariables program.statements
  have globals : program.globals.Sublist (program.functions.flatMap FunctionDecl.bindings) := by
    rw [Program.globals, List.map_eq_flatMap]
    exact List.Sublist.flatMap_right _ fun declaration _ => (List.nil_sublist _).cons_cons _
  have own : ∀ declaration ∈ program.functions, ∀ scope ∈ declaration.scopes,
      scope.Sublist program.bindings := fun declaration member scope within => by
    have whole := List.Sublist.flatMap (List.singleton_sublist.mpr member) FunctionDecl.bindings
    rw [List.flatMap_singleton] at whole
    exact (declaration.sublist_bindings scope within).trans (whole.trans inFunctions)
  have statements : ∀ scope ∈ Stmt.allScopes program.statements, scope.Sublist program.bindings :=
    fun scope member => (parts scope member).trans inStatements
  refine List.forall_mem_cons.mpr ⟨globals.trans inFunctions,
    List.forall_mem_cons.mpr ⟨topLevel.trans inStatements, fun scope member => ?_⟩⟩
  split at member
  · obtain ⟨declaration, there, within⟩ := List.mem_flatMap.mp member
    rcases List.mem_append.mp within with before | inside
    · split at before
      · exact statements scope before
      · cases before
    · exact own declaration there scope inside
  · rcases List.mem_append.mp member with before | inside
    · exact statements scope before
    · obtain ⟨declaration, there, within⟩ := List.mem_flatMap.mp inside
      exact own declaration there scope within

end Program

end Partition

/-! ### Declarations among the tokens -/

namespace Grammar

/-- Bindings stand at tokens in the order of these. -/
def Places (tokens : List Token) (bindings : List Binding) : Prop :=
  (bindings.map Binding.position).Sublist (tokens.map Token.position)

namespace Places

variable {tokens more : List Token} {bindings others : List Binding} {token : Token}

theorem none (tokens : List Token) : Places tokens [] := List.nil_sublist _

theorem append (first : Places tokens bindings) (second : Places more others) :
    Places (tokens ++ more) (bindings ++ others) := by
  rw [Places, List.map_append, List.map_append]
  exact List.Sublist.append first second

theorem left (first : Places tokens bindings) (more : List Token) :
    Places (tokens ++ more) bindings := by
  rw [Places, List.map_append]
  exact List.sublist_append_of_sublist_left first

theorem right (tokens : List Token) (second : Places more bindings) :
    Places (tokens ++ more) bindings := by
  rw [Places, List.map_append]
  exact List.sublist_append_of_sublist_right second

theorem skip (rest : Places tokens bindings) : Places (token :: tokens) bindings :=
  List.Sublist.cons _ rest

theorem name (kind : SymbolKind) (rest : Places tokens bindings) :
    Places (token :: tokens) (Identifier.binding ⟨token⟩ kind :: bindings) :=
      List.Sublist.cons_cons _ rest

end Places

variable {loose : Bool} {tokens : List Token}

theorem IsVarDecl.places {declaration : VarDecl} (derived : IsVarDecl tokens declaration) :
    Places tokens [declaration.binding] := by
  cases derived with
  | mk _ _ _ _ _ _ => exact .skip (.name _ (.none _))

theorem IsLoopStart.places {start : Option LoopStart} :
    IsLoopStart loose tokens start → Places tokens (LoopStart.adds start)
  | .variable declaration => declaration.places
  | .none _ | .omitted _ | .expression _ => .none _

mutual

theorem IsStmt.places {inLoop : Bool} {tokens : List Token} {statement : Stmt} :
    IsStmt loose inLoop tokens statement → Places tokens statement.variables
  | .variable declaration => declaration.places
  | .block block => block.places
  | .conditional conditional => conditional.places
  | .while_ _ _ _ _ block => .skip (.skip (.right _ (.skip block.places)))
  | .for_ _ _ start _ _ _ _ block =>
      .skip (.skip (start.places.append (.right _ (.skip (.right _ (.skip block.places))))))
  | .expression _ | .return_ .. | .break_ .. | .continue_ .. => .none _

theorem AreStmts.places {inLoop : Bool} {tokens : List Token} {statements : List Stmt} :
    AreStmts loose inLoop tokens statements → Places tokens (Stmt.allVariables statements)
  | .none => .none _
  | .more statement others => statement.places.append others.places

theorem IsBlock.places {inLoop : Bool} {tokens : List Token} {block : Token × List Stmt × Token} :
    IsBlock loose inLoop tokens block → Places tokens (Stmt.allVariables block.2.1)
  | .mk _ body _ => .skip (body.places.left _)

theorem IsConditional.places {inLoop : Bool} {tokens : List Token} {statement : Stmt} :
    IsConditional loose inLoop tokens statement → Places tokens statement.variables
  | @IsConditional.mk _ _ _ _ _ _ _ _ _ _ _ _ alternative _ _ _ _ block chosen => by
      refine .skip (.skip (.right _ (.skip ?_)))
      have both := block.places.append chosen.places
      cases alternative with
      | none => simpa [Stmt.variables] using both
      | some statement => exact both

theorem IsAlternative.places {inLoop : Bool} {tokens : List Token} {alternative : Option Stmt} :
    IsAlternative loose inLoop tokens alternative →
      Places tokens ((alternative.map Stmt.variables).getD [])
  | .none => .none _
  | .block _ block => .skip block.places
  | .conditional _ conditional => .skip conditional.places

end

theorem AreSomeParams.places {params : List Param} (derived : AreSomeParams tokens params) :
    Places tokens (params.map Param.binding) := by
  induction derived with
  | one _ _ => exact .name _ (.none _)
  | more _ _ _ _ ih => exact .name _ (.right _ (.skip ih))

theorem AreParams.places {params : List Param} (derived : AreParams tokens params) :
    Places tokens (params.map Param.binding) := by
  cases derived with
  | none => exact .none _
  | some params => exact params.places

theorem IsFunction.places {declaration : FunctionDecl}
    (derived : IsFunction loose tokens declaration) :
    Places tokens declaration.bindings := by
  cases derived with
  | mk _ _ _ params _ _ block =>
      exact .skip (.name _ (.skip (params.places.append (.skip (.right _ block.places)))))

/-- What a program declares stands at its tokens, in order. -/
theorem AreItems.places {items : List Item} (derived : AreItems loose tokens items) :
    Places tokens (items.flatMap Item.bindings) := by
  induction derived with
  | none => exact .none _
  | function declaration _ ih => exact declaration.places.append ih
  | statement statement _ ih => exact statement.places.append ih

end Grammar

end ScriptCompiler
