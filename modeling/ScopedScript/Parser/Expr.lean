import ScopedScript.Parser.Basic
import ScopedScript.Token.Lexicon
import ScopedScript.Expr.Basic

namespace ScopedScript

namespace Parser

def primary (stop : Location) (group : Parser Expr) : Parser Expr := do
  match ← poll with
  | none => failAt .expressionMissing stop
  | some t =>
    match t.kind with
    | .leftParen =>
      let e ← group
      let _ ← require stop .groupEnd
      pure e
    | .wordTrue => pure (.literal (.bool true))
    | .wordFalse => pure (.literal (.bool false))
    | .wordNull => pure (.literal .null)
    | .number | .text => pure (.literal t.value)
    | .identifier => pure (.name t.toName)
    | _ => failAt (.noExpression t.lexeme) t.location

/-- Extends an operand by the operators that bind tighter than `minimum`, at most `bound` of them.
`right` reads the right operand of an operator of a level. -/
def climb (lexicon : Lexicon) (right : Precedence → Parser Expr) (minimum : Precedence) :
    (bound : Nat) → Expr → Parser Expr
  | 0, left => pure left
  | bound + 1, left => do
    match ← peek with
    | none => pure left
    | some operator =>
      let level := lexicon.level operator.kind
      if level ≤ minimum then pure left
      else
        let _ ← poll
        let e ← right level
        climb lexicon right minimum bound (left.infixNode operator e)

mutual

def expression (lexicon : Lexicon) (stop : Location) : (depth : Nat) → Precedence → Parser Expr
  | 0, _ => fail (.fault (.tooDeep .source))
  | depth + 1, minimum => do
    let left ← operand lexicon stop depth
    fun ts => climb lexicon (expression lexicon stop depth) minimum ts.length left ts

def operand (lexicon : Lexicon) (stop : Location) : (depth : Nat) → Parser Expr
  | 0 => fail (.fault (.tooDeep .source))
  | depth + 1 => do
    match ← peek with
    | some t =>
      if t.kind = .minus ∨ t.kind = .bang then
        let _ ← poll
        let e ← operand lexicon stop depth
        pure (.unary t e)
      else primary stop (expression lexicon stop depth .assignment)
    | none => primary stop (expression lexicon stop depth .assignment)

end

def depthLimit : Nat := 1000

end Parser

end ScopedScript
