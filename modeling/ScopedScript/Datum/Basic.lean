import ScopedScript.Expr.Basic
import ScopedScript.Number.Numeral

namespace ScopedScript

structure MethodHead where
  name : String
  parameters : List String
  statements : Nat := 0
  scope : Nat := 0
deriving DecidableEq, Inhabited

inductive Datum
  | value (v : Value)
  | int (n : Int)
  | list (items : List Datum)
  | tuple (items : List Datum)
  | map (entries : List (Datum × Datum))
  | location (l : Location)
  | cell (name : String) (content : Datum)
  | method (m : MethodHead)
  | scope (ordinal : Nat) (cells : List (String × Datum)) (methods : List MethodHead)
  | expr (e : Expr)
deriving Inhabited

namespace Datum

def text (s : String) : Datum := value (.text s)

def text? : Datum → Option String
  | value (.text s) => some s
  | _ => none

def number? : Datum → Option Numeral
  | value (.number x) => some (.real x)
  | int n => some (.whole n)
  | _ => none

def ofNumeral : Numeral → Datum
  | .real x => value (.number x)
  | .whole n => int n

end Datum

end ScopedScript
