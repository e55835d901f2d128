import ScopedScript.Plain.Basic

namespace ScopedScript.Plain.Json

def escape (c : Char) : List Char :=
  match c with
  | '"' => ['\\', '"']
  | '\\' => ['\\', '\\']
  | '\n' => ['\\', 'n']
  | '\r' => ['\\', 'r']
  | '\t' => ['\\', 't']
  | '\x08' => ['\\', 'b']
  | '\x0C' => ['\\', 'f']
  | c => if c.toNat < 0x20 then '\\' :: 'u' :: Text.hexPadded 4 c.toNat else [c]

def string (s : String) : List Char := '"' :: s.toList.flatMap escape ++ ['"']

def real (x : Float) : List Char :=
  match Number.parts x with
  | .nan => "NaN".toList
  | .infinite negative => if negative then "-Infinity".toList else "Infinity".toList
  | p => p.text

def lineStart (pretty : Bool) (level : Nat) : List Char :=
  if pretty then '\n' :: List.replicate (2 * level) ' ' else []

def separator (pretty : Bool) (level : Nat) : List Char :=
  if pretty then ',' :: lineStart pretty level else [',', ' ']

def bracketed (pretty : Bool) (level : Nat) (opening closing : Char) (items : List (List Char)) :
    List Char :=
  match items with
  | [] => [opening, closing]
  | items =>
    opening :: lineStart pretty (level + 1) ++
      (separator pretty (level + 1)).intercalate items ++ lineStart pretty level ++ [closing]

mutual

def encode (pretty : Bool) (level : Nat) : Plain → List Char
  | null => "null".toList
  | bool b => if b then "true".toList else "false".toList
  | int n => (Number.intText n).toList
  | .real x => real x
  | text s => string s
  | list items => bracketed pretty level '[' ']' (encodeItems pretty (level + 1) items)
  | map entries => bracketed pretty level '\x7b' '\x7d' (encodeEntries pretty (level + 1) entries)

def encodeItems (pretty : Bool) (level : Nat) : List Plain → List (List Char)
  | [] => []
  | item :: items => encode pretty level item :: encodeItems pretty level items

def encodeEntries (pretty : Bool) (level : Nat) : List (String × Plain) → List (List Char)
  | [] => []
  | (key, content) :: entries =>
    (string key ++ ':' :: ' ' :: encode pretty level content) ::
      encodeEntries pretty level entries

end

end Json

def toJson (pretty : Bool) (p : Plain) : String := String.ofList (Json.encode pretty 0 p)

end ScopedScript.Plain
