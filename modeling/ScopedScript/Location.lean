import ScopedScript.Number.Text

namespace ScopedScript

structure Location where
  -- not natural numbers: a host that reports errors of its own may give any place
  line : Int := 1
  column : Int := 1
  cursor : Int := 0
deriving DecidableEq, Inhabited

def positionText (line column : Int) : String :=
  "[" ++ Number.intText line ++ ":" ++ Number.intText column ++ "]"

namespace Location

def text (l : Location) : String := positionText l.line l.column

def next (l : Location) (c : Char) : Location :=
  if c = '\n' then ⟨l.line + 1, 1, l.cursor + 1⟩ else ⟨l.line, l.column + 1, l.cursor + 1⟩

def after (l : Location) (cs : List Char) : Location := cs.foldl next l

def shift (l : Location) (n : Nat) : Location := ⟨l.line, l.column + n, l.cursor + n⟩

@[simp] theorem after_nil (l : Location) : l.after [] = l := rfl

@[simp] theorem after_cons (l : Location) (c : Char) (cs : List Char) :
    l.after (c :: cs) = (l.next c).after cs := rfl

@[simp] theorem after_append (l : Location) (cs ds : List Char) :
    l.after (cs ++ ds) = (l.after cs).after ds := by
  simp [after]

@[simp] theorem cursor_next (l : Location) (c : Char) : (l.next c).cursor = l.cursor + 1 := by
  unfold next
  split <;> rfl

@[simp] theorem cursor_after (l : Location) (cs : List Char) :
    (l.after cs).cursor = l.cursor + cs.length := by
  induction cs generalizing l with
  | nil => simp
  | cons c cs ih => simp [ih]; omega

end Location

end ScopedScript
