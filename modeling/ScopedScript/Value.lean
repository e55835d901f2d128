import ScopedScript.Text.Quoted
import ScopedScript.Number.Text

namespace ScopedScript

inductive Value
  | null
  | bool (b : Bool)
  | number (x : Float)
  | text (s : String)
deriving DecidableEq, Inhabited

namespace Value

def typeName : Value → String
  | null => "null"
  | bool _ => "boolean"
  | number _ => "number"
  | text _ => "string"

def form : Value → String
  | null => "NoneType"
  | bool _ => "bool"
  | number _ => "float"
  | text _ => "str"

def isTruthy : Value → Bool
  | null => false
  | bool b => b
  | _ => true

def isNumber : Value → Bool
  | number _ => true
  | _ => false

def isNaN : Value → Bool
  | number x => x.isNaN
  | _ => false

def numberText (x : Float) : String :=
  -- a whole number is written without a point and without an exponent
  match Number.whole? x with
  | some n => Number.intText n
  | none => Number.text x

def toText : Value → String
  | null => "null"
  | bool b => if b then "true" else "false"
  | number x => numberText x
  | text s => s

def inspect : Value → String
  | null => "None"
  | bool b => if b then "True" else "False"
  | number x => Number.text x
  | text s => Text.quoted s

/-- Equality of scripts: values of different types differ, numbers compare by IEEE 754. -/
def equals : Value → Value → Bool
  | null, null => true
  | bool a, bool b => a == b
  | number x, number y => x == y
  | text s, text t => s == t
  | _, _ => false

end Value

end ScopedScript
