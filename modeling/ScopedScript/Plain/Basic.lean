import ScopedScript.Datum.Equality
import ScopedScript.Datum.Printer

namespace ScopedScript

inductive Plain
  | null
  | bool (b : Bool)
  | int (n : Int)
  | real (x : Float)
  | text (s : String)
  | list (items : List Plain)
  | map (entries : List (String × Plain))
deriving Inhabited

namespace Plain

def ofValue : Value → Plain
  | .null => null
  | .bool b => bool b
  | .number x =>
    match Number.whole? x with
    | some n => int n
    | none => real x
  | .text s => text s

def ofBindings (bindings : List (String × Value)) : Plain :=
  map (bindings.map fun b => (b.1, ofValue b.2))

end Plain

namespace Datum

mutual

/-- A datum as plain data: variables become their values, scopes the maps of their variables, and
what has no counterpart its text. -/
def plain : Datum → Plain
  | value v => .ofValue v
  | int n => .int n
  | list items => .list (plainAll items)
  | tuple items => .list (plainAll items)
  | map entries => .map (collectEntries (· == ·) (plainEntries entries))
  | location l => .text l.text
  | cell _ content => content.plain
  | method m => .text m.render
  | scope _ cells _ => .map (plainCells cells)
  | expr e => .text e.inspect

def plainAll : List Datum → List Plain
  | [] => []
  | item :: items => item.plain :: plainAll items

def plainEntries : List (Datum × Datum) → List (String × Plain)
  | [] => []
  | (key, content) :: entries => (key.display, content.plain) :: plainEntries entries

def plainCells : List (String × Datum) → List (String × Plain)
  | [] => []
  | (name, content) :: cells => (name, content.plain) :: plainCells cells

end

end Datum

end ScopedScript
