import ScopedScript.Plain.Basic
import ScopedScript.Plain.Yaml.Style

namespace ScopedScript.Plain.Yaml

open Text

def bestWidth : Nat := 80

def newLine (indent : Nat) : List Char := '\n' :: List.replicate indent ' '

inductive Run
  | word (cs : List Char)
  | blanks (n : Nat)
  | breaks (cs : List Char)
deriving DecidableEq

def Run.push (c : Char) (runs : List Run) : List Run :=
  if c = ' ' then
    match runs with
    | .blanks n :: rest => .blanks (n + 1) :: rest
    | _ => .blanks 1 :: runs
  else if isBreak c then
    match runs with
    | .breaks cs :: rest => .breaks (c :: cs) :: rest
    | _ => .breaks [c] :: runs
  else
    match runs with
    | .word cs :: rest => .word (c :: cs) :: rest
    | _ => .word [c] :: runs

def runs (cs : List Char) : List Run := cs.foldr Run.push []

structure Frame where
  indent : Nat
  split : Bool

/-- Writes runs from a column on. In quotes, apostrophes are doubled, and the blank at either end
is no place to fold. -/
def writeRuns (f : Frame) (quotes : Bool) (first : Bool) (column : Nat) : List Run → List Char
  | [] => []
  | .word cs :: rest =>
    let written := if quotes then cs.flatMap fun c => if c = '\'' then [c, c] else [c] else cs
    written ++ writeRuns f quotes false (column + written.length) rest
  | .blanks n :: rest =>
    if n = 1 ∧ f.split ∧ column > bestWidth ∧ (!quotes || (!first && !rest.isEmpty)) then
      newLine f.indent ++ writeRuns f quotes false f.indent rest
    else List.replicate n ' ' ++ writeRuns f quotes false (column + n) rest
  | .breaks cs :: rest =>
    let extra := if cs.head? = some '\n' then ['\n'] else []
    extra ++ cs ++ List.replicate f.indent ' ' ++ writeRuns f quotes false f.indent rest

def needsEscape (c : Char) : Bool :=
  let n := c.toNat
  c == '"' || c == '\\' || n == 0x85 || n == 0x2028 || n == 0x2029 || n == 0xFEFF ||
    !((0x20 ≤ n && n ≤ 0x7E) || isBasic n)

def escape (c : Char) : List Char :=
  let hex (width : Nat) : List Char := (hexPadded width c.toNat).map Char.toUpper
  '\\' :: match c with
    | '\x00' => ['0']
    | '\x07' => ['a']
    | '\x08' => ['b']
    | '\t' => ['t']
    | '\n' => ['n']
    | '\x0B' => ['v']
    | '\x0C' => ['f']
    | '\r' => ['r']
    | '\x1B' => ['e']
    | '"' => ['"']
    | '\\' => ['\\']
    | '\u0085' => ['N']
    | '\u2028' => ['L']
    | '\u2029' => ['P']
    | c =>
      if c.toNat < 0x100 then 'x' :: hex 2
      else if c.toNat < 0x10000 then 'u' :: hex 4
      else 'U' :: hex 8

/-- Writes a text between quotation marks from a column on. `pending` holds, last first, the
characters that are not written yet. A line may be folded behind an escape and in front of a blank;
a blank that starts a line is escaped. -/
def writeEscaped (f : Frame) (first : Bool) (column : Nat) (pending : List Char) :
    List Char → List Char
  | [] => pending.reverse
  | c :: cs =>
    let folds := !first && !cs.isEmpty && f.split
    if needsEscape c then
      let written := pending.reverse ++ escape c
      let column := column + written.length
      if folds && column > bestWidth + 1 then
        let mark := if cs.head? = some ' ' then ['\\'] else []
        written ++ '\\' :: newLine f.indent ++ mark ++
          writeEscaped f false (f.indent + mark.length) [] cs
      else written ++ writeEscaped f false column [] cs
    else if folds && (c == ' ' || pending.isEmpty) && column + pending.length > bestWidth then
      let mark := if c = ' ' then ['\\'] else []
      pending.reverse ++ '\\' :: newLine f.indent ++ mark ++
        writeEscaped f false (f.indent + mark.length) [c] cs
    else writeEscaped f false column (c :: pending) cs

def writeText (f : Frame) (column : Nat) (cs : List Char) : List Char :=
  match style cs with
  | .plain => writeRuns f false true column (runs cs)
  | .single => '\'' :: writeRuns f true true (column + 1) (runs cs) ++ ['\'']
  | .double => '"' :: writeEscaped f true (column + 1) [] cs ++ ['"']

def real (x : Float) : List Char :=
  match Number.parts x with
  | .nan => ".nan".toList
  | .infinite negative => if negative then "-.inf".toList else ".inf".toList
  | p =>
    let cs := p.text
    if cs.contains '.' then cs
    else cs.flatMap fun c => if c = 'e' then ['.', '0', 'e'] else [c]

end ScopedScript.Plain.Yaml
