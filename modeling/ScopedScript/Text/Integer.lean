import ScopedScript.Text.Blanks
import ScopedScript.Text.Digits

namespace ScopedScript.Text

/-- The value of digits between which single underscores may stand. `pending` holds the value so
far once a digit stands in front. -/
def separatedDigits? : (pending : Option Nat) → List Char → Option Nat
  | pending, [] => pending
  | none, c :: cs => (digitValue? c).bind fun d => separatedDigits? (some d) cs
  | some n, c :: cs =>
    match digitValue? c with
    | some d => separatedDigits? (some (10 * n + d)) cs
    | none =>
      match c, cs with
      | '_', c' :: cs' => (digitValue? c').bind fun d => separatedDigits? (some (10 * n + d)) cs'
      | _, _ => none

def digitLimit : Nat := 4300

def natural? (cs : List Char) : Option Nat :=
  if cs.countP isDecimal ≤ digitLimit then separatedDigits? none cs else none

def int? (s : String) : Option Int :=
  match stripWith isWhiteSpace s.toList with
  | '-' :: cs => (natural? cs).map fun n => -(n : Int)
  | '+' :: cs => (natural? cs).map Int.ofNat
  | cs => (natural? cs).map Int.ofNat

end ScopedScript.Text
