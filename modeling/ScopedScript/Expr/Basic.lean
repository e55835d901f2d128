import ScopedScript.Token.Basic

namespace ScopedScript

structure Name where
  text : String
  location : Location
deriving DecidableEq, Inhabited

/-- The name that an identifier is, read off its text. Every identifier that a lexicon makes has its
text as its value as well (`Lexicon.ReadAs`); of tokens made otherwise the value is not asked. -/
def Token.toName (t : Token) : Name := ⟨t.lexeme, t.location⟩

/-- An expression. Operators are kept as tokens: an error of an operator is reported at its place
and in its spelling. The right operand of a `logical` node is evaluated only if the left one does
not decide. -/
inductive Expr
  | literal (value : Value)
  | name (name : Name)
  | unary (operator : Token) (operand : Expr)
  | binary (left : Expr) (operator : Token) (right : Expr)
  | logical (left : Expr) (operator : Token) (right : Expr)
deriving DecidableEq, Inhabited

namespace Expr

def depth : Expr → Nat
  | literal _ => 1
  | name _ => 1
  | unary _ e => e.depth + 1
  | binary l _ r => max l.depth r.depth + 1
  | logical l _ r => max l.depth r.depth + 1

theorem depth_pos (e : Expr) : 0 < e.depth := by
  cases e <;> simp [depth]

def names : Expr → List Name
  | literal _ => []
  | name n => [n]
  | unary _ e => e.names
  | binary l _ r => l.names ++ r.names
  | logical l _ r => l.names ++ r.names

def infixNode (left : Expr) (operator : Token) (right : Expr) : Expr :=
  if operator.kind = .wordAnd ∨ operator.kind = .wordOr then logical left operator right
  else binary left operator right

end Expr

end ScopedScript
