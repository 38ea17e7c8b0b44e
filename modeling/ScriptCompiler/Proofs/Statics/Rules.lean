import ScriptCompiler.Proofs.Semantics.Source
import ScriptCompiler.Ty

/-!
# The static rules

A program is well formed when every scope declares a name once, every name that is used has been
declared before or around its use, and every expression and statement has the types that the rules
ask for.  There are no conversions: operands meet only when their types are equal.  The rules are
about trees alone and say nothing of scope tables or instructions.
-/

namespace ScriptCompiler.Statics

open Semantics

/-- What a declared name denotes. -/
inductive Denoted where
  /-- A variable or parameter of a type. -/
  | variable (type : BasicType)
  /-- A function. -/
  | function (signature : Signature)

/-- The declarations of one scope in order. -/
abbrev Scope := List (Bytes × Denoted)

/-- The names that a scope declares. -/
def Scope.names (scope : Scope) : List Bytes := scope.map Prod.fst

/-- The scopes around a place of the program, the innermost first. -/
abbrev Env := List Scope

/-- What a name denotes: its nearest declaration decides. -/
def Env.find? (env : Env) (name : Bytes) : Option Denoted :=
  env.findSome? fun scope => scope.lookup name

section Expressions

/-- An operator takes two operands of one type to a result of another. -/
inductive Combines : TokenKind → BasicType → BasicType → Prop where
  /-- Arithmetic on numbers. -/
  | arithmetic {operator : TokenKind} {type : BasicType} :
      operator ∈ [.plus, .minus, .star, .slash, .percent] → type ∈ [.int, .float] →
      Combines operator type type
  /-- The order of numbers. -/
  | order {operator : TokenKind} {type : BasicType} :
      operator ∈ [.less, .lessEqual, .greater, .greaterEqual] → type ∈ [.int, .float] →
      Combines operator type .bool
  /-- Equality of numbers and of truth values. -/
  | equality {operator : TokenKind} {type : BasicType} :
      operator ∈ [.equal, .notEqual] → type ∈ [.int, .float, .bool] → Combines operator type .bool

/-- An operator takes one operand of a type to a result of that type. -/
inductive Turns : TokenKind → BasicType → Prop where
  /-- The negative of a number. -/
  | minus {type : BasicType} : type ∈ [.int, .float] → Turns .minus type
  /-- The opposite of a truth value. -/
  | bang : Turns .bang .bool

/-- The type of a literal. -/
def literalType : Literal → BasicType
  | .int _ => .int
  | .float _ => .float
  | .bool _ => .bool
  | .string _ => .string

mutual

/-- An expression has a type; a call of a function without a result has the type of nothing. -/
inductive HasType (env : Env) : Expr → BasicType → Prop where
  | literal {token : Token} {value : Literal} :
      HasType env (.literal token value) (literalType value)
  | variable {identifier : Identifier} {type : BasicType} :
      env.find? identifier.name = some (.variable type) → HasType env (.variable identifier) type
  | group {opening closing : Token} {inner : Expr} {type : BasicType} :
      HasType env inner type → HasType env (.group opening inner closing) type
  | binary {left right : Expr} {operator : Token} {operand type : BasicType} :
      HasType env left operand → HasType env right operand → Combines operator.kind operand type →
      HasType env (.binary left operator right) type
  | logical {left right : Expr} {operator : Token} :
      HasType env left .bool → HasType env right .bool →
      HasType env (.logical left operator right) .bool
  | unary {operator : Token} {operand : Expr} {type : BasicType} :
      HasType env operand type → Turns operator.kind type →
      HasType env (.unary operator operand) type
  /-- What is assigned has the type of the variable, which is also that of the assignment. -/
  | assignment {target : Identifier} {operator : Token} {value : Expr} {type : BasicType} :
      env.find? target.name = some (.variable type) → HasType env value type →
      compoundArithmetic operator.kind = none →
      HasType env (.assignment target operator value) type
  /-- The arithmetic of a compound assignment yields the type of the variable. -/
  | compound {target : Identifier} {operator : Token} {value : Expr} {arithmetic : TokenKind}
      {type : BasicType} :
      env.find? target.name = some (.variable type) → HasType env value type →
      compoundArithmetic operator.kind = some arithmetic → Combines arithmetic type type →
      HasType env (.assignment target operator value) type
  /-- Arguments have the types of the parameters. -/
  | call {callee : Identifier} {arguments : List Expr} {closing : Token} {signature : Signature} :
      env.find? callee.name = some (.function signature) →
      HaveTypes env arguments signature.params →
      HasType env (.call callee arguments closing) signature.result
  /-- The output function, where its name is not declared, takes one argument of any type but that
  of nothing. -/
  | print {callee : Identifier} {argument : Expr} {closing : Token} {type : BasicType} :
      env.find? callee.name = none → callee.name = outputName → HasType env argument type →
      type ≠ .void → HasType env (.call callee [argument] closing) .void

/-- Expressions have types, one each. -/
inductive HaveTypes (env : Env) : List Expr → List BasicType → Prop where
  | nil : HaveTypes env [] []
  | cons {expression : Expr} {expressions : List Expr} {type : BasicType} {types : List BasicType} :
      HasType env expression type → HaveTypes env expressions types →
      HaveTypes env (expression :: expressions) (type :: types)

end

end Expressions

section Statements

/-- A declaration gives a variable its type, by an annotation, by an initial value or by both. -/
structure Introduces (env : Env) (declaration : VarDecl) (type : BasicType) : Prop where
  /-- An annotation names the type. -/
  annotated : ∀ identifier ∈ declaration.type, BasicType.ofName? identifier.name = some type
  /-- An initial value has the type. -/
  initialised : ∀ expression ∈ declaration.initial, HasType env expression type
  /-- Variables hold values. -/
  notVoid : type ≠ .void
  /-- There is one of the two. -/
  given : declaration.type.isSome ∨ declaration.initial.isSome

/-- What a loop does before its first round is well formed and declares what the scope of the loop
holds. -/
inductive Starts (outer : Env) : Option LoopStart → Scope → Prop where
  | nothing : Starts outer none []
  | variable {declaration : VarDecl} {type : BasicType} :
      Introduces ([] :: outer) declaration type →
      Starts outer (some (.variable declaration)) [(declaration.name.name, .variable type)]
  | expression {statement : ExprStmt} {type : BasicType} :
      HasType ([] :: outer) statement.expression type →
      Starts outer (some (.expression statement)) []

mutual

/-- A statement is well formed in a scope inside others and leaves the scope with what it declares.
Returns are those of a function with the result; jumps need a loop. -/
inductive Admits (result : BasicType) : Bool → Env → Scope → Stmt → Scope → Prop where
  | expression {inLoop : Bool} {outer : Env} {own : Scope} {statement : ExprStmt}
      {type : BasicType} :
      HasType (own :: outer) statement.expression type →
      Admits result inLoop outer own (.expression statement) own
  /-- A variable is declared behind its initial value, and once in its scope. -/
  | variable {inLoop : Bool} {outer : Env} {own : Scope} {declaration : VarDecl}
      {type : BasicType} :
      Introduces (own :: outer) declaration type → declaration.name.name ∉ own.names →
      Admits result inLoop outer own (.variable declaration)
        (own ++ [(declaration.name.name, .variable type)])
  | block {inLoop : Bool} {outer : Env} {own inner : Scope} {opening closing : Token}
      {body : List Stmt} :
      AdmitsAll result inLoop (own :: outer) [] body inner →
      Admits result inLoop outer own (.block opening body closing) own
  | when {inLoop : Bool} {outer : Env} {own inner : Scope} {first : Position} {condition : Expr}
      {opening closing : Token} {consequent : List Stmt} :
      HasType (own :: outer) condition .bool →
      AdmitsAll result inLoop (own :: outer) [] consequent inner →
      Admits result inLoop outer own (.conditional first condition opening consequent closing none)
        own
  | choice {inLoop : Bool} {outer : Env} {own inner last : Scope} {first : Position}
      {condition : Expr} {opening closing : Token} {consequent : List Stmt} {alternative : Stmt} :
      HasType (own :: outer) condition .bool →
      AdmitsAll result inLoop (own :: outer) [] consequent inner →
      Admits result inLoop outer own alternative last →
      Admits result inLoop outer own
        (.conditional first condition opening consequent closing (some alternative)) last
  /-- The scope of a loop is around the scope of its body. -/
  | loop {inLoop : Bool} {outer : Env} {own header inner : Scope} {keyword : Token}
      {start : Option LoopStart} {condition advance : Option Expr} {opening closing : Token}
      {body : List Stmt} :
      Starts (own :: outer) start header →
      (∀ test ∈ condition, HasType (header :: own :: outer) test .bool) →
      (∀ expression ∈ advance, ∃ type, HasType (header :: own :: outer) expression type) →
      AdmitsAll result true (header :: own :: outer) [] body inner →
      Admits result inLoop outer own
        (.loop keyword start condition advance opening body closing) own
  | leave {inLoop : Bool} {outer : Env} {own : Scope} {first : Position} {semicolon : Token} :
      result = .void → Admits result inLoop outer own (.return_ first none semicolon) own
  | return_ {inLoop : Bool} {outer : Env} {own : Scope} {first : Position} {value : Expr}
      {semicolon : Token} :
      HasType (own :: outer) value result → result ≠ .void →
      Admits result inLoop outer own (.return_ first (some value) semicolon) own
  | break_ {outer : Env} {own : Scope} {keyword : Token} :
      Admits result true outer own (.break_ keyword) own
  | continue_ {outer : Env} {own : Scope} {keyword : Token} :
      Admits result true outer own (.continue_ keyword) own

/-- Statements are well formed one after the other. -/
inductive AdmitsAll (result : BasicType) : Bool → Env → Scope → List Stmt → Scope → Prop where
  | nil {inLoop : Bool} {outer : Env} {own : Scope} : AdmitsAll result inLoop outer own [] own
  | cons {inLoop : Bool} {outer : Env} {own middle last : Scope} {statement : Stmt}
      {statements : List Stmt} :
      Admits result inLoop outer own statement middle →
      AdmitsAll result inLoop outer middle statements last →
      AdmitsAll result inLoop outer own (statement :: statements) last

end

end Statements

section Programs

/-- The type that an annotation names, if it names one. -/
def namedType (identifier : Identifier) : BasicType :=
  (BasicType.ofName? identifier.name).getD .invalid

/-- The signature that a declaration writes. -/
def signature (declaration : FunctionDecl) : Signature where
  params := declaration.params.map fun param => namedType param.type
  result := (declaration.result.map namedType).getD .void

/-- The types in the head of a function exist, and only the result may be that of nothing. -/
structure Annotated (declaration : FunctionDecl) : Prop where
  /-- Parameters hold values. -/
  params : ∀ param ∈ declaration.params,
    ∃ type, BasicType.ofName? param.type.name = some type ∧ type ≠ .void
  /-- The result has a type. -/
  result : ∀ identifier ∈ declaration.result, (BasicType.ofName? identifier.name).isSome

/-- The scope of a function as its body begins. -/
def paramScope (declaration : FunctionDecl) : Scope :=
  declaration.params.map fun param => (param.name.name, .variable (namedType param.type))

/-- The scope of a program: its functions, all of which see each other. -/
def globals (program : Program) : Scope :=
  program.functions.map fun declaration =>
    (declaration.name.name, .function (signature declaration))

/-- The parameters and the body of a function share a scope. -/
structure AdmitsFunction (outer : Env) (declaration : FunctionDecl) : Prop where
  /-- Parameters have different names. -/
  params : (declaration.params.map fun param => param.name.name).Nodup
  /-- The body is well formed. -/
  body : ∃ last, AdmitsAll (signature declaration).result false outer (paramScope declaration)
    declaration.body last

/-- The program's own entry function. -/
def IsEntry (options : EntryOptions) (declaration : FunctionDecl) : Prop :=
  options.policy = .auto ∧ declaration.name.name = options.entryName

/-- A program is well formed.  The variables at top level are in sight of the entry function alone,
which the statements at top level belong to. -/
structure WellFormed (options : EntryOptions) (stem : Bytes) (program : Program) : Prop where
  /-- Functions have different names. -/
  distinct : (program.functions.map fun declaration => declaration.name.name).Nodup
  /-- The types in their heads exist. -/
  annotated : ∀ declaration ∈ program.functions, Annotated declaration
  /-- Bodies see the functions of the program. -/
  bodies : ∀ declaration ∈ program.functions, ¬ IsEntry options declaration →
    AdmitsFunction [globals program] declaration
  /-- The statements at top level come before the body of the program's own entry function. -/
  entry : ∀ declaration ∈ program.functions, IsEntry options declaration →
    ∃ top, AdmitsAll (signature declaration).result false [globals program]
      [] program.statements top ∧
      AdmitsFunction [top, globals program] declaration
  /-- Without one they are a function with an integer result, whose name is not taken. -/
  topLevel : (∀ declaration ∈ program.functions, ¬ IsEntry options declaration) →
    (∀ declaration ∈ program.functions, declaration.name.name ≠ synthesizedEntry stem) ∧
      ∃ top, AdmitsAll .int false [globals program] [] program.statements top

end Programs

end ScriptCompiler.Statics
