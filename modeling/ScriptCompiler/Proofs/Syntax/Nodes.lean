import ScriptCompiler.Proofs.Syntax.Acceptance

/-!
# The nodes of a tree

A syntax tree as nodes, each with a first and a last position and with its children in source order.
Every node is derived from a run of tokens (`SyntaxNode.Derives`).  The runs of its children stand
one behind the other within its own (`SyntaxNode.Derives.spread`), it begins with the first token of
its run, and unless it is a jump it ends with the last one (`SyntaxNode.Derives.exists_last`).
-/

namespace ScriptCompiler

/-- A node of a syntax tree, the root apart. -/
inductive SyntaxNode where
  /-- A function declaration. -/
  | function (declaration : FunctionDecl)
  /-- A statement. -/
  | statement (content : Stmt)
  /-- An expression. -/
  | expression (content : Expr)

namespace SyntaxNode

/-- The node of a name. -/
def name (identifier : Identifier) : SyntaxNode := .expression (.variable identifier)

/-- The node of statements in braces. -/
def block (opening : Token) (body : List Stmt) (closing : Token) : SyntaxNode :=
  .statement (.block opening body closing)

/-- Where a node begins. -/
def first : SyntaxNode → Position
  | .function declaration => declaration.first
  | .statement content => content.first
  | .expression content => content.first

/-- Where a node ends. -/
def last : SyntaxNode → Position
  | .function declaration => declaration.last
  | .statement content => content.last
  | .expression content => content.last

/-- Whether a node is a jump out of a round of a loop. -/
def isJump : SyntaxNode → Bool
  | .statement (.break_ _) | .statement (.continue_ _) => true
  | _ => false

end SyntaxNode

/-! ### Children -/

/-- The children of an expression. -/
def Expr.children : Expr → List SyntaxNode
  | .literal _ _ | .variable _ => []
  | .binary left _ right | .logical left _ right => [.expression left, .expression right]
  | .unary _ operand => [.expression operand]
  | .assignment target _ value => [.name target, .expression value]
  | .call callee arguments _ => .name callee :: arguments.map .expression
  | .group _ inner _ => [.expression inner]

/-- The children of a declaration of a variable: its name, its type and its initial value. -/
def VarDecl.children (declaration : VarDecl) : List SyntaxNode :=
  .name declaration.name ::
    (declaration.type.toList.map .name ++ declaration.initial.toList.map .expression)

/-- The node of what a loop does before its first round. -/
def LoopStart.node : LoopStart → SyntaxNode
  | .variable declaration => .statement (.variable declaration)
  | .expression statement => .statement (.expression statement)

/-- The children of a statement. -/
def Stmt.children : Stmt → List SyntaxNode
  | .expression statement => [.expression statement.expression]
  | .variable declaration => declaration.children
  | .block _ body _ => body.map .statement
  | .conditional _ test opening consequent closing alternative =>
      .expression test :: .block opening consequent closing :: alternative.toList.map .statement
  | .loop _ start test advance opening body closing =>
      start.toList.map LoopStart.node ++ (test.toList.map .expression ++
        (advance.toList.map .expression ++ [.block opening body closing]))
  | .return_ _ value _ => value.toList.map .expression
  | .break_ _ | .continue_ _ | .function _ => []

/-- The children of a parameter: its name and its type. -/
def Param.children (param : Param) : List SyntaxNode := [.name param.name, .name param.type]

/-- The children of a function declaration: its name, the name and the type of each parameter, its
result type and its body. -/
def FunctionDecl.children (declaration : FunctionDecl) : List SyntaxNode :=
  .name declaration.name :: (declaration.params.flatMap Param.children ++
    (declaration.result.toList.map .name ++
      [.block declaration.opening declaration.body declaration.closing]))

/-- The node of an item. -/
def Item.node : Item → SyntaxNode
  | .function declaration => .function declaration
  | .statement content => .statement content

/-- The children of the root. -/
def Program.children (program : Program) : List SyntaxNode := program.items.map Item.node

/-- The children of a node. -/
def SyntaxNode.children : SyntaxNode → List SyntaxNode
  | .function declaration => declaration.children
  | .statement content => content.children
  | .expression content => content.children

/-- The nodes of the tree of a program, the root apart. -/
inductive Program.Contains (program : Program) : SyntaxNode → Prop where
  /-- The children of the root. -/
  | item {node : SyntaxNode} : node ∈ program.children → Contains program node
  /-- The children of a node. -/
  | child {node child : SyntaxNode} : Contains program node → child ∈ node.children →
      Contains program child

/-! ### Runs of tokens -/

namespace SyntaxNode

open Grammar

/-- Tokens are a node. -/
inductive Derives : List Token → SyntaxNode → Prop where
  /-- A function declaration. -/
  | function {tokens : List Token} {declaration : FunctionDecl} :
      IsFunction false tokens declaration → Derives tokens (.function declaration)
  /-- A statement. -/
  | statement {inLoop : Bool} {tokens : List Token} {content : Stmt} :
      IsStmt false inLoop tokens content → Derives tokens (.statement content)
  /-- An expression. -/
  | expression {level : Precedence} {tokens : List Token} {content : Expr} :
      IsExpr level tokens content → Derives tokens (.expression content)

/-- Nodes are spread over tokens: each is derived from a run of them, and the runs stand one behind
the other. -/
inductive Spread : List Token → List SyntaxNode → Prop where
  /-- Tokens without a node. -/
  | none (tokens : List Token) : Spread tokens []
  /-- Tokens, the run of a node and what the other nodes are spread over. -/
  | more (gap : List Token) {run rest : List Token} {node : SyntaxNode} {nodes : List SyntaxNode} :
      Derives run node → Spread rest nodes → Spread (gap ++ (run ++ rest)) (node :: nodes)

namespace Spread

variable {tokens tokens' : List Token} {nodes nodes' : List SyntaxNode} {node : SyntaxNode}

theorem behind (front : List Token) (spread : Spread tokens nodes) :
    Spread (front ++ tokens) nodes := by
  cases spread with
  | none => exact .none _
  | more gap derived rest =>
      rw [← List.append_assoc]
      exact .more _ derived rest

theorem append (spread : Spread tokens nodes) (spread' : Spread tokens' nodes') :
    Spread (tokens ++ tokens') (nodes ++ nodes') := by
  induction spread with
  | none tokens => exact spread'.behind tokens
  | more gap derived _ ih =>
      rw [List.append_assoc, List.append_assoc]
      exact .more gap derived ih

theorem before (back : List Token) (spread : Spread tokens nodes) :
    Spread (tokens ++ back) nodes := by
  simpa using spread.append (.none back)

theorem one (derived : Derives tokens node) : Spread tokens [node] := by
  simpa using Spread.more [] derived (.none [])

/-- Each of the nodes is derived from a run of the tokens. -/
theorem exists_run (spread : Spread tokens nodes) (member : node ∈ nodes) :
    ∃ front run back, tokens = front ++ run ++ back ∧ Derives run node := by
  induction spread with
  | none => cases member
  | @more gap run rest _ _ derived _ ih =>
      rcases List.mem_cons.mp member with rfl | later
      · exact ⟨gap, run, rest, (List.append_assoc _ _ _).symm, derived⟩
      · obtain ⟨front, other, back, rfl, derived'⟩ := ih later
        exact ⟨gap ++ (run ++ front), other, back, by simp only [List.append_assoc], derived'⟩

end Spread

variable {tokens : List Token}

theorem derives_name {token : Token} (isName : token.kind = .identifier) :
    Derives [token] (.name ⟨token⟩) :=
  .expression (.variable isName)

/-! ### Children within the run of a node -/

theorem spread_someArguments {tokens : List Token} {arguments : List Expr} :
    AreSomeArguments tokens arguments → Spread tokens (arguments.map .expression)
  | @AreSomeArguments.more _ _ comma _ _ argument _ others =>
      .append (.one (.expression argument)) ((spread_someArguments others).behind [comma])
  | .one argument => .one (.expression argument)

theorem spread_arguments {arguments : List Expr} (derived : AreArguments tokens arguments) :
    Spread tokens (arguments.map .expression) := by
  cases derived with
  | none => exact .none _
  | some arguments => exact spread_someArguments arguments

theorem spread_expr {tokens : List Token} {level : Precedence} {content : Expr} :
    IsExpr level tokens content → Spread tokens content.children
  | .tighter inner => spread_expr inner
  | @IsExpr.assignment _ operator _ _ isName _ value =>
      .more [] (derives_name isName) ((Spread.one (.expression value)).behind [operator])
  | @IsExpr.logical _ _ _ _ _ operator _ left right =>
      .append (.one (.expression left)) ((Spread.one (.expression right)).behind [operator])
  | @IsExpr.binary _ _ _ _ _ operator _ left right =>
      .append (.one (.expression left)) ((Spread.one (.expression right)).behind [operator])
  | @IsExpr.unary operator _ _ _ operand => (Spread.one (.expression operand)).behind [operator]
  | @IsExpr.call _ opening closing _ _ isName _ _ arguments =>
      .more [] (derives_name isName)
        (((spread_arguments arguments).before [closing]).behind [opening])
  | .literal _ | .variable _ => .none _
  | @IsExpr.group opening closing _ _ _ _ inner =>
      ((Spread.one (.expression inner)).before [closing]).behind [opening]

theorem spread_optional {content : Option Expr} (derived : IsOptional tokens content) :
    Spread tokens (content.toList.map .expression) := by
  cases derived with
  | none => exact .none _
  | some content => exact .one (.expression content)

theorem spread_type {type : Identifier} (derived : IsType tokens type) :
    Spread tokens [.name type] := by
  cases derived with
  | plain isName => exact .one (derives_name isName)
  | @colon colon _ _ isName => exact (Spread.one (derives_name isName)).behind [colon]

theorem spread_declaredType {type : Option Identifier} (derived : IsDeclaredType tokens type) :
    Spread tokens (type.toList.map .name) := by
  cases derived with
  | none => exact .none _
  | some type => exact spread_type type

theorem spread_initial {content : Option Expr} (derived : IsInitial tokens content) :
    Spread tokens (content.toList.map .expression) := by
  cases derived with
  | none => exact .none _
  | @some equals _ _ _ content => exact (Spread.one (.expression content)).behind [equals]

theorem spread_varDecl {declaration : VarDecl} (derived : IsVarDecl tokens declaration) :
    Spread tokens declaration.children := by
  cases derived with
  | @mk keyword name semicolon _ _ _ _ _ isName type initial _ _ =>
      exact .more [keyword] (derives_name isName)
        (((spread_declaredType type).append (spread_initial initial)).before [semicolon])

theorem spread_start {start : Option LoopStart} (derived : IsLoopStart false tokens start) :
    Spread tokens (start.toList.map LoopStart.node) := by
  cases derived with
  | none _ | omitted _ => exact .none _
  | «variable» declaration => exact .one (@Derives.statement false _ _ (.variable declaration))
  | expression statement => exact .one (@Derives.statement false _ _ (.expression statement))

theorem spread_stmts {tokens : List Token} {inLoop : Bool} {contents : List Stmt} :
    AreStmts false inLoop tokens contents → Spread tokens (contents.map .statement)
  | .more content others => .append (.one (.statement content)) (spread_stmts others)
  | .none => .none _

theorem derives_block {inLoop : Bool} {opening closing : Token} {body : List Stmt}
    (derived : IsBlock false inLoop tokens (opening, body, closing)) :
    Derives tokens (.block opening body closing) :=
  .statement (.block derived)

theorem spread_alternative {inLoop : Bool} {alternative : Option Stmt}
    (derived : IsAlternative false inLoop tokens alternative) :
    Spread tokens (alternative.toList.map .statement) := by
  cases derived with
  | none => exact .none _
  | @block _ keyword _ _ _ _ _ block => exact (Spread.one (derives_block block)).behind [keyword]
  | @conditional _ keyword _ _ _ conditional =>
      exact (Spread.one (.statement (.conditional conditional))).behind [keyword]

theorem spread_stmt {inLoop : Bool} {content : Stmt}
    (derived : IsStmt false inLoop tokens content) :
    Spread tokens content.children := by
  cases derived with
  | expression statement =>
      cases statement with
      | @mk _ _ semicolon expression _ =>
          exact (Spread.one (.expression expression)).before [semicolon]
  | «variable» declaration => exact spread_varDecl declaration
  | @block _ _ opening closing _ block =>
      cases block with
      | mk _ body _ => exact ((spread_stmts body).before [closing]).behind [opening]
  | conditional conditional =>
      cases conditional with
      | @mk _ keyword left right _ _ _ _ _ _ _ _ _ _ test _ block alternative =>
          exact .more [keyword, left] (.expression test)
            (.more [right] (derives_block block) (spread_alternative alternative))
  | @while_ _ keyword left right _ _ _ _ _ _ _ _ test _ block =>
      exact .more [keyword, left] (.expression test)
        ((Spread.one (derives_block block)).behind [right])
  | @for_ _ keyword left middle right _ _ _ _ _ _ _ _ _ _ _ _ start test _ advance _ block =>
      exact ((spread_start start).append ((spread_optional test).append
        (((spread_optional advance).append
          ((Spread.one (derives_block block)).behind [right])).behind
          [middle]))).behind [keyword, left]
  | @return_ _ keyword semicolon _ _ _ value _ =>
      exact ((spread_optional value).before [semicolon]).behind [keyword]
  | break_ _ _ | continue_ _ _ => exact .none _

theorem spread_someParams {tokens : List Token} {params : List Param} :
    AreSomeParams tokens params → Spread tokens (params.flatMap Param.children)
  | .one isName type => .more [] (derives_name isName) (spread_type type)
  | @AreSomeParams.more _ comma _ _ _ _ isName type _ others =>
      .more [] (derives_name isName)
        ((spread_type type).append ((spread_someParams others).behind [comma]))

theorem spread_params {params : List Param} (derived : AreParams tokens params) :
    Spread tokens (params.flatMap Param.children) := by
  cases derived with
  | none => exact .none _
  | some params => exact spread_someParams params

theorem spread_result {result : Option Identifier} (derived : IsResult tokens result) :
    Spread tokens (result.toList.map .name) := by
  cases derived with
  | none => exact .none _
  | some isName => exact .one (derives_name isName)

theorem spread_function {declaration : FunctionDecl}
    (derived : IsFunction false tokens declaration) :
    Spread tokens declaration.children := by
  cases derived with
  | @mk keyword _ left right _ _ _ _ _ _ _ _ _ isName _ params _ result block =>
      exact .more [keyword] (derives_name isName)
        (((spread_params params).append (((spread_result result).append
          (.one (derives_block block))).behind [right])).behind [left])

/-- The children of a node are spread over its run. -/
theorem Derives.spread {node : SyntaxNode} (derived : Derives tokens node) :
    Spread tokens node.children := by
  cases derived with
  | function declaration => exact spread_function declaration
  | statement content => exact spread_stmt content
  | expression content => exact spread_expr content

/-- The items of a program are spread over its tokens. -/
theorem spread_items {contents : List Item} (derived : AreItems false tokens contents) :
    Spread tokens (contents.map Item.node) := by
  induction derived with
  | none => exact .none _
  | function declaration _ ih => exact .append (.one (.function declaration)) ih
  | statement content _ ih => exact .append (.one (.statement content)) ih

/-! ### The ends of a run -/

theorem exists_first_expr {tokens : List Token} {level : Precedence} {content : Expr} :
    IsExpr level tokens content → ∃ token rest, tokens = token :: rest ∧
    content.first = token.position
  | .assignment _ _ _ | .unary _ _ | .call _ _ _ _ | .literal _ | .variable _ | .group _ _ _ =>
      ⟨_, _, rfl, rfl⟩
  | .logical _ left _ | .binary _ left _ => by
      obtain ⟨token, rest, rfl, begins⟩ := exists_first_expr left
      exact ⟨token, _, rfl, begins⟩
  | .tighter inner => exists_first_expr inner

/-- A node begins with the first token of its run. -/
theorem Derives.exists_first {node : SyntaxNode} (derived : Derives tokens node) :
    ∃ token rest, tokens = token :: rest ∧ node.first = token.position := by
  cases derived with
  | function declaration =>
      cases declaration
      exact ⟨_, _, rfl, rfl⟩
  | expression content => exact exists_first_expr content
  | statement content =>
      cases content with
      | expression statement =>
          cases statement with
          | mk expression _ =>
              obtain ⟨token, rest, rfl, begins⟩ := exists_first_expr expression
              exact ⟨token, _, rfl, begins⟩
      | «variable» declaration =>
          cases declaration
          exact ⟨_, _, rfl, rfl⟩
      | block block =>
          cases block
          exact ⟨_, _, rfl, rfl⟩
      | conditional conditional =>
          cases conditional
          exact ⟨_, _, rfl, rfl⟩
      | while_ _ _ _ _ _ | for_ _ _ _ _ _ _ _ _ | return_ _ _ _ | break_ _ _ | continue_ _ _ =>
          exact ⟨_, _, rfl, rfl⟩

end SyntaxNode

/-- The kinds of the marks that close nodes. -/
def TokenKind.closings : List TokenKind := [.rightParen, .rightBrace, .semicolon]

/-- A position is that of the last rune of a token, or that of a mark that closes a node. -/
def Token.EndsAt (token : Token) (position : Position) : Prop :=
  position = token.last ∨ token.kind ∈ TokenKind.closings ∧ position = token.position

namespace SyntaxNode

open Grammar

variable {tokens : List Token}

theorem exists_last_expr {tokens : List Token} {level : Precedence} {content : Expr} :
    IsExpr level tokens content →
      ∃ (front : List Token) (token : Token), tokens = front ++ [token] ∧ token.EndsAt content.last
  | .literal _ | .variable _ => ⟨[], _, rfl, .inl rfl⟩
  | @IsExpr.call callee opening _ tokens _ _ _ isClosing _ =>
      ⟨callee :: opening :: tokens, _, rfl, .inr ⟨by simp [isClosing, TokenKind.closings], rfl⟩⟩
  | @IsExpr.group opening _ tokens _ _ isClosing _ =>
      ⟨opening :: tokens, _, rfl, .inr ⟨by simp [isClosing, TokenKind.closings], rfl⟩⟩
  | @IsExpr.assignment target operator _ _ _ _ value => by
      obtain ⟨front, token, rfl, ends⟩ := exists_last_expr value
      exact ⟨target :: operator :: front, token, rfl, ends⟩
  | @IsExpr.unary operator _ _ _ operand => by
      obtain ⟨front, token, rfl, ends⟩ := exists_last_expr operand
      exact ⟨operator :: front, token, rfl, ends⟩
  | @IsExpr.logical _ first _ _ _ operator _ _ right | @IsExpr.binary _ first _ _ _ operator _ _
      right => by
      obtain ⟨front, token, rfl, ends⟩ := exists_last_expr right
      exact ⟨first ++ operator :: front, token, by simp, ends⟩
  | .tighter inner => exists_last_expr inner

theorem exists_last_block {inLoop : Bool} {opening closing : Token} {body : List Stmt}
    (derived : IsBlock false inLoop tokens (opening, body, closing)) :
    ∃ front, tokens = front ++ [closing] ∧ closing.EndsAt closing.position := by
  cases derived with
  | @mk _ _ _ tokens _ _ _ isClosing =>
      exact ⟨opening :: tokens, rfl, .inr ⟨by simp [isClosing, TokenKind.closings], rfl⟩⟩

mutual

theorem exists_last_conditional {tokens : List Token} {inLoop : Bool} {content : Stmt} :
    IsConditional false inLoop tokens content →
      ∃ (front : List Token) (token : Token), tokens = front ++ [token] ∧ token.EndsAt content.last
  | @IsConditional.mk _ _ keyword left right _ closing testing _ _ _ _ alternative _ _ _ _ block
      other => by
      have later := exists_last_alternative other
      obtain ⟨front, rfl, ends⟩ := exists_last_block block
      cases alternative with
      | none =>
          cases other
          exact ⟨keyword :: left :: (testing ++ right :: front), closing, by simp, ends⟩
      | some content =>
          obtain ⟨front', token, rfl, ends'⟩ := later content rfl
          exact ⟨keyword :: left :: (testing ++ right :: (front ++ closing :: front')),
            token, by simp,
            ends'⟩

theorem exists_last_alternative {tokens : List Token} {inLoop : Bool} {alternative : Option Stmt} :
    IsAlternative false inLoop tokens alternative → ∀ content, alternative = some content →
      ∃ (front : List Token) (token : Token), tokens = front ++ [token] ∧ token.EndsAt content.last
  | .none => by
      rintro content ⟨⟩
  | @IsAlternative.block _ _ keyword _ _ _ _ _ block => by
      rintro _ ⟨⟩
      obtain ⟨front, rfl, ends⟩ := exists_last_block block
      exact ⟨keyword :: front, _, rfl, ends⟩
  | @IsAlternative.conditional _ _ keyword _ _ _ conditional => by
      rintro _ ⟨⟩
      obtain ⟨front, token, rfl, ends⟩ := exists_last_conditional conditional
      exact ⟨keyword :: front, token, rfl, ends⟩

end

theorem closing_semicolon {semicolon : Token} (isClosing : semicolon.kind = .semicolon) :
    semicolon.EndsAt semicolon.position :=
  .inr ⟨by simp [isClosing, TokenKind.closings], rfl⟩

theorem exists_last_stmt {inLoop : Bool} {content : Stmt}
    (derived : IsStmt false inLoop tokens content)
    (noJump : (SyntaxNode.statement content).isJump = false) :
    ∃ (front : List Token) (token : Token), tokens = front ++ [token] ∧
    token.EndsAt content.last := by
  cases derived with
  | expression statement =>
      cases statement with
      | mk _ isClosing => exact ⟨_, _, rfl, closing_semicolon isClosing⟩
  | «variable» declaration =>
      cases declaration with
      | @mk keyword name _ typing initialising _ _ _ _ _ _ _ isClosing =>
          exact ⟨keyword :: name :: (typing ++ initialising), _, rfl, closing_semicolon isClosing⟩
  | block block =>
      obtain ⟨front, rfl, ends⟩ := exists_last_block block
      exact ⟨front, _, rfl, ends⟩
  | conditional conditional => exact exists_last_conditional conditional
  | @while_ _ keyword left right _ _ testing _ _ _ _ _ _ _ block =>
      obtain ⟨front, rfl, ends⟩ := exists_last_block block
      exact ⟨keyword :: left :: (testing ++ right :: front), _, by simp, ends⟩
  | @for_ _ keyword left middle right _ _ starting testing advancing _ _ _ _ _ _ _ _ _ _ _
      _ block =>
      obtain ⟨front, rfl, ends⟩ := exists_last_block block
      exact
        ⟨keyword :: left :: (starting ++ (testing ++ middle :: (advancing ++ right :: front))), _,
          by simp, ends⟩
  | @return_ _ keyword _ tokens _ _ _ isClosing =>
      exact ⟨keyword :: tokens, _, rfl, closing_semicolon isClosing⟩
  | break_ _ _ | continue_ _ _ => cases noJump

/-- A node that is no jump ends with the last token of its run. -/
theorem Derives.exists_last {node : SyntaxNode} (derived : Derives tokens node)
    (noJump : node.isJump = false) :
    ∃ (front : List Token) (token : Token), tokens = front ++ [token] ∧ token.EndsAt node.last := by
  cases derived with
  | function declaration =>
      cases declaration with
      | @mk keyword name left right _ _ listing ending _ _ _ _ _ _ _ _ _ _ block =>
          obtain ⟨front, rfl, ends⟩ := exists_last_block block
          exact ⟨keyword :: name :: left :: (listing ++ right :: (ending ++ front)), _, by
            simp, ends⟩
  | statement content => exact exists_last_stmt content noJump
  | expression content => exact exists_last_expr content

/-- A jump is a keyword and a semicolon, and it ends with the keyword. -/
theorem Derives.exists_keyword {node : SyntaxNode} (derived : Derives tokens node)
    (jump : node.isJump = true) :
    ∃ keyword semicolon, tokens = [keyword, semicolon] ∧ keyword.kind ∈ TokenKind.keywords ∧
      node.last = keyword.last := by
  cases derived with
  | function _ | expression _ => cases jump
  | statement content =>
      cases content with
      | @break_ keyword semicolon isKeyword _ =>
          exact ⟨keyword, semicolon, rfl, by rw [isKeyword]; decide, rfl⟩
      | @continue_ keyword semicolon isKeyword _ =>
          exact ⟨keyword, semicolon, rfl, by rw [isKeyword]; decide, rfl⟩
      | conditional conditional =>
          cases conditional
          cases jump
      | _ => cases jump

end SyntaxNode

namespace Program

/-- Every node of a program is derived from a run of its tokens. -/
theorem Contains.exists_run {origin : Origin} {tokens : List Token} {program : Program}
    (read : ofTokens origin tokens = .ok program) {node : SyntaxNode}
    (within : program.Contains node) :
    ∃ front run back, content tokens = front ++ run ++ back ∧ node.Derives run := by
  induction within with
  | item member => exact (SyntaxNode.spread_items (derived_of_ofTokens read)).exists_run member
  | child _ member ih =>
      obtain ⟨front, run, back, split, derived⟩ := ih
      obtain ⟨front', run', back', rfl, derived'⟩ := derived.spread.exists_run member
      exact ⟨front ++ front', run', back' ++ back, by rw [split]; simp only [List.append_assoc],
        derived'⟩

end Program

end ScriptCompiler
