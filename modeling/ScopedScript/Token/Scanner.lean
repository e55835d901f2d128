import ScopedScript.Error
import ScopedScript.Text.Letters
import ScopedScript.Text.Digits
import ScopedScript.Token.Lexicon

/-!
# Scanning

A source is cut into pieces from left to right. The first character of what is left decides: a
quotation mark opens a text that ends with the next one, a digit starts a number and a letter a
word, each as long as possible, and anything else is the first spelling of the lexicon that
matches. A character that starts nothing is a stray and makes no token.
-/

namespace ScopedScript

inductive Shape
  | blank
  | text
  | number
  | word
  | fixed (kind : TokenKind)
  | stray
deriving DecidableEq

structure Piece where
  shape : Shape
  chars : List Char
  location : Location
deriving DecidableEq

/-- The pieces of a source, the place behind what was read, the place of an opening quotation mark
that is never closed, and what stands there. -/
structure Scan where
  pieces : List Piece
  stop : Location
  unclosed : Option Location := none
  rest : List Char := []

def isSpacing (c : Char) : Bool := c == ' ' || c == '\t' || c == '\r' || c == '\n'

namespace Lexicon

def munch (l : Lexicon) (c : Char) (cs : List Char) : Option (Shape × Nat) :=
  if isSpacing c then some (.blank, 0)
  else if c = '"' then (cs.idxOf? '"').map fun n => (.text, n + 1)
  else if Text.isDecimal c then some (.number, (cs.takeWhile Text.isDecimal).length)
  else if Text.isLetter c then some (.word, (cs.takeWhile Text.isLetter).length)
  else
    match l.spellings.find? (·.matchesAt (c :: cs)) with
    | some s => some (.fixed s.kind, s.rest.length)
    | none => some (.stray, 0)

/-- The place behind a piece. A line feed inside a fixed text does not start a line. -/
def endOf (location : Location) (shape : Shape) (chars : List Char) : Location :=
  match shape with
  | .fixed _ => location.shift chars.length
  | _ => location.after chars

def scanFrom (l : Lexicon) (location : Location) : List Char → Scan
  | [] => ⟨[], location, none, []⟩
  | c :: cs =>
    match l.munch c cs with
    | none => ⟨[], location.after (c :: cs), some location, c :: cs⟩
    | some (shape, extra) =>
      let chars := c :: cs.take extra
      let scan := scanFrom l (endOf location shape chars) (cs.drop extra)
      { scan with pieces := ⟨shape, chars, location⟩ :: scan.pieces }
termination_by cs => cs.length
decreasing_by simp only [List.length_drop, List.length_cons]; omega

def scan (l : Lexicon) (source : String) : Scan := l.scanFrom {} source.toList

def token? (l : Lexicon) (p : Piece) : Option Token :=
  let lexeme := String.ofList p.chars
  match p.shape with
  | .blank | .stray => none
  | .text => some ⟨.text, lexeme, .text (String.ofList p.chars.tail.dropLast), p.location⟩
  | .number =>
    some ⟨.number, lexeme, .number (Number.ofNat (Text.digitsValue p.chars)), p.location⟩
  | .word =>
    match l.keyword? lexeme with
    | some kind => some ⟨kind, lexeme, .null, p.location⟩
    | none => some ⟨.identifier, lexeme, .text lexeme, p.location⟩
  | .fixed kind => some ⟨kind, lexeme, .null, p.location⟩

def note? (l : Lexicon) (p : Piece) : Option String :=
  let lexeme := String.ofList p.chars
  match p.shape with
  | .word =>
    if (l.keyword? lexeme).isSome then
      some ("lexer: keyword " ++ lexeme ++ " at " ++ p.location.text)
    else none
  | .stray => some ("lexer: skipping " ++ Text.quoted lexeme ++ " at " ++ p.location.text)
  | _ => none

def tokens (l : Lexicon) (s : Scan) : List Token := s.pieces.filterMap l.token?

def notes (l : Lexicon) (s : Scan) : List String := s.pieces.filterMap l.note?

end Lexicon

def Scan.error? (s : Scan) : Option ScriptError :=
  s.unclosed.map fun opening => ⟨.unterminatedText, some opening⟩

namespace Lexicon

def tokenize (l : Lexicon) (source : String) : Except ScriptError (List Token × Location) :=
  let s := l.scan source
  match s.error? with
  | some e => .error e
  | none => .ok (l.tokens s, s.stop)

end Lexicon

end ScopedScript
