import ScriptCompiler.Token.Kind

/-!
# Operator precedence

The levels at which operators bind, from the weakest to the tightest.
-/

namespace ScriptCompiler

/-- A level at which operators bind. -/
inductive Precedence where
  | none
  | assignment
  | disjunction
  | conjunction
  | equality
  | comparison
  | term
  | factor
  | unary
  | call
  | primary
  deriving DecidableEq, Repr

namespace Precedence

/-- The levels from the weakest to the tightest. -/
def all : List Precedence :=
  [.none, .assignment, .disjunction, .conjunction, .equality, .comparison, .term, .factor, .unary,
    .call, .primary]

/-- The number of a level; a tighter level has a higher number. -/
def level : Precedence → Nat
  | .none => 0
  | .assignment => 1
  | .disjunction => 2
  | .conjunction => 3
  | .equality => 4
  | .comparison => 5
  | .term => 6
  | .factor => 7
  | .unary => 8
  | .call => 9
  | .primary => 10

/-- The name of a level. -/
def name : Precedence → Bytes
  | .none => "none"
  | .assignment => "assignment"
  | .disjunction => "or"
  | .conjunction => "and"
  | .equality => "equality"
  | .comparison => "comparison"
  | .term => "term"
  | .factor => "factor"
  | .unary => "unary"
  | .call => "call"
  | .primary => "primary"

/-- The name of the level with a number; a number beyond the levels is taken for the tightest. -/
def nameOfCode (code : Int) : Bytes :=
  if code < 0 then primary.name else (all[code.toNat]?.getD .primary).name

/-- The next tighter level. -/
def tighter : Precedence → Precedence
  | .none => .assignment
  | .assignment => .disjunction
  | .disjunction => .conjunction
  | .conjunction => .equality
  | .equality => .comparison
  | .comparison => .term
  | .term => .factor
  | .factor => .unary
  | .unary => .call
  | .call => .primary
  | .primary => .primary

/-- The level at which a token binds the operand on its left; `none` if it is no such operator. -/
def ofOperator : TokenKind → Precedence
  | .assign | .plusAssign | .minusAssign | .starAssign | .slashAssign => .assignment
  | .eitherOr => .disjunction
  | .bothAnd => .conjunction
  | .equal | .notEqual => .equality
  | .less | .lessEqual | .greater | .greaterEqual => .comparison
  | .plus | .minus => .term
  | .star | .slash | .percent => .factor
  | .leftParen => .call
  | _ => .none

/-- The weakest level of the right operand of an operator: its own level for assignments, which
group from the right, and the next tighter level for all others. -/
def ofRightOperand (kind : TokenKind) : Precedence :=
  match ofOperator kind with
  | .assignment => .assignment
  | level => level.tighter

end Precedence

end ScriptCompiler
