import ScopedScript.Plain.Yaml.Resolution

namespace ScopedScript.Plain.Yaml

def isBreak (c : Char) : Bool := c ∈ ['\n', '\u0085', '\u2028', '\u2029']

def isSpace (c : Char) : Bool := isBreak c || c ∈ ['\x00', ' ', '\t', '\r']

def isBasic (n : Nat) : Bool := (0xA0 ≤ n && n ≤ 0xD7FF) || (0xE000 ≤ n && n ≤ 0xFFFD)

def isSpecial (c : Char) : Bool :=
  let n := c.toNat
  !(c == '\n' || (0x20 ≤ n && n ≤ 0x7E)) &&
    (!(n == 0x85 || isBasic n || (0x10000 ≤ n && n < 0x10FFFF)) || n == 0xFEFF)

inductive Style
  | plain
  | single
  | double
deriving DecidableEq

def adjacent (p : Char → Char → Bool) : List Char → Bool
  | a :: b :: cs => p a b || adjacent p (b :: cs)
  | _ => false

def endsMark (cs : List Char) : Bool := (cs.head?.map isSpace).getD true

def startsMark (cs : List Char) : Bool :=
  match cs with
  | [] => false
  | c :: rest =>
    "#,[]\x7b\x7d&*!|>'\"%@`".toList.contains c ||
      ((c == '?' || c == ':' || c == '-') && endsMark rest) ||
      "---".toList.isPrefixOf cs || "...".toList.isPrefixOf cs

def endsWordWithColon : List Char → Bool
  | [] => false
  | c :: cs => (c == ':' && endsMark cs) || endsWordWithColon cs

def isPlain (cs : List Char) : Bool :=
  !cs.any isBreak && cs.head? != some ' ' && cs.getLast? != some ' ' && !startsMark cs &&
    !endsWordWithColon cs.tail && !adjacent (fun a b => isSpace a && b == '#') cs &&
    !isResolved cs

def style (cs : List Char) : Style :=
  if cs.isEmpty then .single
  else if cs.any isSpecial || adjacent (fun a b => a == ' ' && isBreak b) cs ||
      adjacent (fun a b => isBreak a && b == ' ') cs then .double
  else if isPlain cs then .plain
  else .single

end ScopedScript.Plain.Yaml
