import ScopedScript.Plain.Yaml.Scalar

namespace ScopedScript.Plain.Yaml

def keyTag : Nat := 5

def keyLimit : Nat := 128

def isSimpleKey (cs : List Char) : Bool :=
  -- a key counts with its tag, which is not written
  !cs.isEmpty && !cs.any isBreak && cs.length + keyTag < keyLimit

/-- What is no collection with anything in it, written from a column on inside a collection that is
indented by `indent`. -/
def flat? (indent column : Nat) : Plain → Option (List Char)
  | null => some "null".toList
  | bool b => some (if b then "true".toList else "false".toList)
  | int n => some (Number.intText n).toList
  | .real x => some (real x)
  | text s => some (writeText ⟨indent + 2, true⟩ column s.toList)
  | list [] => some ['[', ']']
  | map [] => some ['\x7b', '\x7d']
  | _ => none

def behindMark (indent : Nat) (p : Plain) (nested : Nat → List Char) : List Char :=
  match flat? indent (indent + 2) p with
  | some cs => ' ' :: cs ++ ['\n']
  | none => ' ' :: nested (indent + 2)

def behindKey (indent column : Nat) (p : Plain) (nested : Nat → List Char) : List Char :=
  match flat? indent column p with
  | some cs => ' ' :: cs ++ ['\n']
  | none =>
    match p with
    | list _ => newLine indent ++ nested indent
    | _ => newLine (indent + 2) ++ nested (indent + 2)

mutual

def block : Plain → (indent : Nat) → List Char
  | list items, indent => blockItems indent true items
  | map entries, indent => blockEntries indent true entries
  | _, _ => []

def blockItems (indent : Nat) (first : Bool) : List Plain → List Char
  | [] => []
  | item :: items =>
    (if first then [] else List.replicate indent ' ') ++
      '-' :: behindMark indent item (block item) ++ blockItems indent false items

def blockEntries (indent : Nat) (first : Bool) : List (String × Plain) → List Char
  | [] => []
  | (key, content) :: entries =>
    let cs := key.toList
    let margin := List.replicate indent ' '
    let entry :=
      if isSimpleKey cs then
        let written := writeText ⟨indent + 2, false⟩ indent cs
        written ++ ':' :: behindKey indent (indent + written.length + 2) content (block content)
      else
        '?' :: ' ' :: writeText ⟨indent + 2, true⟩ (indent + 2) cs ++ '\n' :: margin ++
          ':' :: behindMark indent content (block content)
    (if first then [] else margin) ++ entry ++ blockEntries indent false entries

end

def needsEnd : Plain → Bool
  | text s => style s.toList == .plain
  | list _ | map _ => false
  | _ => true

end Yaml

def toYaml (p : Plain) : String :=
  match Yaml.flat? 0 0 p with
  | some cs => String.ofList (cs ++ '\n' :: (if Yaml.needsEnd p then "...\n".toList else []))
  | none => String.ofList (Yaml.block p 0)

end ScopedScript.Plain
