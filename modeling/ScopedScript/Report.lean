import ScopedScript.Error
import ScopedScript.Text.Lines

namespace ScopedScript

def placedText (message : String) (place : Option (Int × Int)) : String :=
  match place with
  | some (line, column) => positionText line column ++ " " ++ message
  | none => message

def defaultRadius : Int := 2

namespace Excerpt

def blanks (n : Nat) : String := String.ofList (List.replicate n ' ')

def row (mark : String) (width number : Nat) (content : List Char) : String :=
  let digits := Number.natDigits number
  mark ++ " " ++ blanks (width - digits.length) ++ String.ofList digits ++ " | " ++
    String.ofList content

def caretRow (width : Nat) (column : Int) : String :=
  "  " ++ blanks width ++ " | " ++ blanks (column - 1).toNat ++ "^"

def rows (width line : Nat) (column : Option Int) (number : Nat) (content : List Char) :
    List String :=
  if number = line then
    row ">" width number content :: (column.map (caretRow width)).toList
  else [row " " width number content]

/-- The numbers of the first and the last line shown around line `line` of `count` lines. -/
def window (count line : Nat) (radius : Int) : Nat × Nat :=
  ((max 1 ((line : Int) - radius)).toNat, (min (count : Int) (line + radius)).toNat)

end Excerpt

def excerptRows (source : List Char) (line : Int) (column : Option Int) (radius : Int) :
    List String :=
  let all := Text.lines source
  if line < 1 ∨ (all.length : Int) < line then []
  else
    let (first, last) := Excerpt.window all.length line.toNat radius
    let width := (Number.natDigits last).length
    let shown := (all.drop (first - 1)).take (last + 1 - first)
    (shown.zipIdx first).flatMap fun (content, number) =>
      Excerpt.rows width line.toNat column number content

def excerpt (source : String) (line : Int) (column : Option Int) (radius : Int) : String :=
  "\n".intercalate (excerptRows source.toList line column radius)

def reportText (heading message : String) (place : Option (Int × Int)) (source : String) :
    String :=
  let first := heading ++ ": " ++ placedText message place
  match place with
  | none => first
  | some (line, column) =>
    let shown := excerpt source line (some column) defaultRadius
    if shown.isEmpty then first else first ++ "\n" ++ shown

namespace ScriptError

def place (e : ScriptError) : Option (Int × Int) :=
  e.location.map fun l => (l.line, l.column)

def text (e : ScriptError) : String := placedText e.message e.place

def report (e : ScriptError) (source : String) : String :=
  reportText e.kind.heading e.message e.place source

end ScriptError

end ScopedScript
