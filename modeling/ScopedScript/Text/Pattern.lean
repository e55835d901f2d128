namespace ScopedScript.Text

inductive Pattern
  | nothing
  | empty
  | char (p : Char → Bool)
  | seq (first second : Pattern)
  | either (left right : Pattern)
  | many (p : Pattern)

namespace Pattern

def fitsEmpty : Pattern → Bool
  | nothing => false
  | empty => true
  | char _ => false
  | seq p q => p.fitsEmpty && q.fitsEmpty
  | either p q => p.fitsEmpty || q.fitsEmpty
  | many _ => true

def followedBy : Pattern → Pattern → Pattern
  | nothing, _ => nothing
  | _, nothing => nothing
  | empty, q => q
  | p, q => seq p q

def orElse : Pattern → Pattern → Pattern
  | nothing, q => q
  | p, nothing => p
  | p, q => either p q

def after (c : Char) : Pattern → Pattern
  | nothing => nothing
  | empty => nothing
  | char p => if p c then empty else nothing
  | seq p q =>
    let rest := (p.after c).followedBy q
    if p.fitsEmpty then rest.orElse (q.after c) else rest
  | either p q => (p.after c).orElse (q.after c)
  | many p => (p.after c).followedBy (many p)

def fits (p : Pattern) (cs : List Char) : Bool := (cs.foldl (fun q c => q.after c) p).fitsEmpty

def just (c : Char) : Pattern := char fun d => d == c

def oneOf (s : String) : Pattern := char fun c => s.toList.contains c

def word (s : String) : Pattern := s.toList.foldr (fun c p => seq (just c) p) empty

def anyOf (ps : List Pattern) : Pattern := ps.foldr orElse nothing

def all (ps : List Pattern) : Pattern := ps.foldr followedBy empty

def optional (p : Pattern) : Pattern := either p empty

def atLeastOnce (p : Pattern) : Pattern := seq p (many p)

def digit : Pattern := char Char.isDigit

end Pattern

end ScopedScript.Text
