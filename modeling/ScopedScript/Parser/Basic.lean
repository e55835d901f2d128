import ScopedScript.Error

/-!
# Parsers

A parser takes tokens from the front of a list. It ends with a result or a failure, and either way
with the tokens it did not take. `manyUntil` repeats a parser; it needs no bound from outside,
because a parser that takes tokens can run only as often as there are any.
-/

namespace ScopedScript

inductive Parsed (α : Type)
  | done (result : α) (rest : List Token)
  | failed (failure : Failure) (rest : List Token)

def Parser (α : Type) := List Token → Parsed α

namespace Parser

variable {α β : Type}

protected def pure (a : α) : Parser α := fun ts => .done a ts

protected def bind (p : Parser α) (f : α → Parser β) : Parser β := fun ts =>
  match p ts with
  | .done a rest => f a rest
  | .failed e rest => .failed e rest

instance : Monad Parser where
  pure := Parser.pure
  bind := Parser.bind

@[simp] theorem pure_apply (a : α) (ts : List Token) : (pure a : Parser α) ts = .done a ts := rfl

theorem bind_apply (p : Parser α) (f : α → Parser β) (ts : List Token) :
    (p >>= f) ts = match p ts with
      | .done a rest => f a rest
      | .failed e rest => .failed e rest := rfl

def fail (failure : Failure) : Parser α := fun ts => .failed failure ts

def failAt (cause : Cause) (location : Location) : Parser α := fail (.ofCause cause location)

def peek : Parser (Option Token) := fun ts => .done ts.head? ts

def poll : Parser (Option Token) := fun ts => .done ts.head? ts.tail

def atEnd : Parser Bool := fun ts => .done ts.isEmpty ts

def isNext (kinds : List TokenKind) : Parser Bool := fun ts =>
  .done ((ts.head?.map fun t => kinds.contains t.kind).getD false) ts

def place (stop : Location) : Parser Location := fun ts =>
  .done ((ts.head?.map Token.location).getD stop) ts

def expect (stop : Location) (kind : TokenKind) (cause : Cause) : Parser Token := fun ts =>
  match ts with
  | t :: rest => if t.kind = kind then .done t rest else .failed (.ofCause cause t.location) ts
  | [] => .failed (.ofCause cause stop) []

def require (stop : Location) (r : Requirement) : Parser Token :=
  expect stop r.kind (.missing r)

def skip (kind : TokenKind) : Parser Unit := fun ts =>
  match ts with
  | t :: rest => if t.kind = kind then .done () rest else .done () ts
  | [] => .done () []

def manyUntilWithin (ends : Parser Bool) (one : Parser α) : (bound : Nat) → Parser (List α)
  | 0 => pure []
  | bound + 1 => do
    if ← ends then pure []
    else
      let a ← one
      let as ← manyUntilWithin ends one bound
      pure (a :: as)

def manyUntil (ends : Parser Bool) (one : Parser α) : Parser (List α) := fun ts =>
  manyUntilWithin ends one (ts.length + 1) ts

end Parser

end ScopedScript
