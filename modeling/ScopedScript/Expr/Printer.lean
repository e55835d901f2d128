import ScopedScript.Expr.Basic

namespace ScopedScript

namespace Value

/-- A value as a script writes it. Texts have no escapes, so theirs are written as they are. -/
def render : Value → String
  | text s => "\"" ++ s ++ "\""
  | v => v.toText

end Value

namespace Expr

def isInfix : Expr → Bool
  | binary .. | logical .. => true
  | _ => false

def parenthesized (needed : Bool) (text : String) : String :=
  if needed then "(" ++ text ++ ")" else text

def render : Expr → String
  | literal v => v.render
  | name n => n.text
  | unary op e => op.lexeme ++ parenthesized e.isInfix e.render
  | binary l op r | logical l op r =>
    parenthesized l.isInfix l.render ++ " " ++ op.lexeme ++ " " ++ parenthesized r.isInfix r.render

end Expr

def Location.inspect (l : Location) : String :=
  "SourceLocation(line=" ++ Number.intText l.line ++ ", column=" ++ Number.intText l.column ++
    ", cursor=" ++ Number.intText l.cursor ++ ")"

def Token.inspect (t : Token) : String :=
  "TokenBinding(kind=<TokenKind." ++ t.kind.label ++ ": " ++ Text.quoted t.kind.name ++
    ">, lexeme=" ++ Text.quoted t.lexeme ++ ", value=" ++ t.value.inspect ++
    ", location=" ++ t.location.inspect ++ ")"

def Name.token (n : Name) : Token := ⟨.identifier, n.text, .text n.text, n.location⟩

namespace Expr

def form : Expr → String
  | literal _ => "Literal"
  | name _ => "Identifier"
  | unary .. => "Unary"
  | binary .. => "Binary"
  | logical .. => "Logical"

def inspect : Expr → String
  | literal v => "Literal(value=" ++ v.inspect ++ ")"
  | name n => "Identifier(name=" ++ Text.quoted n.text ++ ", token=" ++ n.token.inspect ++ ")"
  | unary op e => "Unary(operator=" ++ op.inspect ++ ", operand=" ++ e.inspect ++ ")"
  | binary l op r =>
    "Binary(left=" ++ l.inspect ++ ", operator=" ++ op.inspect ++ ", right=" ++ r.inspect ++ ")"
  | logical l op r =>
    "Logical(left=" ++ l.inspect ++ ", operator=" ++ op.inspect ++ ", right=" ++ r.inspect ++ ")"

end Expr

end ScopedScript
