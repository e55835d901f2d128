import ScopedScript.Datum.Inspect

/-!
# Equality of data

Data are equal if they are built alike from equal parts, and numbers are equal by value: true is
one, and a whole number may equal a double. A variable, a method and a scope equal nothing but
themselves, and so does a NaN, which no two data share. The keys of a map are told apart by this
equality; what is made of lists or maps cannot be a key.
-/

namespace ScopedScript

namespace Value

def counted? : Value → Option Numeral
  | bool b => some (.whole (if b then 1 else 0))
  | number x => some (.real x)
  | _ => none

def alike (v w : Value) : Bool :=
  match v.counted?, w.counted? with
  | some m, some n => m.compare? n == some .eq
  | _, _ => v.equals w

end Value

def Expr.alike : Expr → Expr → Bool
  | literal v, literal w => v.alike w
  | name m, name n => m == n
  | unary op e, unary op' e' => op == op' && e.alike e'
  | binary l op r, binary l' op' r' => l.alike l' && op == op' && r.alike r'
  | logical l op r, logical l' op' r' => l.alike l' && op == op' && r.alike r'
  | _, _ => false

namespace Datum

def counted? : Datum → Option Numeral
  | value v => v.counted?
  | int n => some (.whole n)
  | _ => none

def alike (a b : Datum) : Bool :=
  match a.counted?, b.counted? with
  | some m, some n => m.compare? n == some .eq
  | _, _ =>
    match a, b with
    | value v, value w => v.equals w
    | location l, location m => l == m
    | expr e, expr f => e.alike f
    | _, _ => false

mutual

def equals : Datum → Datum → Bool
  | list items, list others | tuple items, tuple others => equalAll items others
  | map entries, map others =>
    entries.length == others.length && equalEntries entries others
  | a, b => a.alike b

def equalAll : List Datum → List Datum → Bool
  | [], [] => true
  | a :: items, b :: others => a.equals b && equalAll items others
  | _, _ => false

def equalEntries : List (Datum × Datum) → List (Datum × Datum) → Bool
  | [], _ => true
  | (key, content) :: entries, others =>
    (others.any fun o => key.equals o.1 && content.equals o.2) && equalEntries entries others

end

def unchanged (a b : Datum) : Bool := a.form == b.form && a.equals b

mutual

def keyFault? : Datum → Option String
  | list _ => some "list"
  | map _ => some "dict"
  | tuple items => keyFaultIn? items
  | _ => none

def keyFaultIn? : List Datum → Option String
  | [] => none
  | item :: items => (keyFault? item).or (keyFaultIn? items)

end

end Datum

/-- Puts an entry into an association list: an entry with the same key keeps its place and its
spelling of the key. -/
def putEntry {κ α : Type} (same : κ → κ → Bool) (key : κ) (content : α) :
    List (κ × α) → List (κ × α)
  | [] => [(key, content)]
  | (k, v) :: entries =>
    if same k key then (k, content) :: entries
    else (k, v) :: putEntry same key content entries

def collectEntries {κ α : Type} (same : κ → κ → Bool) (entries : List (κ × α)) : List (κ × α) :=
  entries.foldl (fun done e => putEntry same e.1 e.2 done) []

structure BadKey where
  form : String
deriving DecidableEq

def BadKey.message (e : BadKey) : String := "unhashable type: '" ++ e.form ++ "'"

def Datum.entries (entries : List (Datum × Datum)) : Except BadKey (List (Datum × Datum)) :=
  match entries.findSome? fun e => e.1.keyFault? with
  | some form => .error ⟨form⟩
  | none => .ok (collectEntries Datum.equals entries)

end ScopedScript
