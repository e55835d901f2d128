namespace ScopedScript.Text

/-- Whether code point `n` is in the class whose membership is `now` below the first boundary and
changes at every boundary. -/
def memberAt (n : Nat) : (now : Bool) → (boundaries : List Nat) → Bool
  | now, [] => now
  | now, b :: bs => if n < b then now else memberAt n (!now) bs

end ScopedScript.Text
