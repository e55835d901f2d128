import ScopedScript.Location
import ScopedScript.Value
import ScopedScript.Token.Kind

namespace ScopedScript

/-- A token: its kind, its text in the source, its literal value (null where the kind has none)
and the place where it starts. -/
structure Token where
  kind : TokenKind
  lexeme : String
  value : Value
  location : Location
deriving DecidableEq, Inhabited

def Token.describe (t : Token) : String :=
  t.kind.label ++ " " ++ Text.quoted t.lexeme ++ " " ++ t.location.text

end ScopedScript
