import ScopedScript.Expr.Basic
import ScopedScript.Expr.Operator

/-!
# Evaluation

An expression is evaluated against a view of the variables, a function from names to data: it
reads nothing else and writes nothing. The operators `and` and `or` skip their right operand when
the left one decides, but the names in a skipped operand must still be bound.

Evaluation goes down the tree at most as deep as the argument `room` allows, and so does the check
of names; where the tree is deeper, what comes first from the left fails first.
`checkBound_eq` says that with room enough the check finds the leftmost name that is unbound, and
`evaluate_congr_room` that evaluation does not depend on how much more room there is.
-/

namespace ScopedScript

abbrev View (α : Type) := String → Option α

namespace Expr

variable {α : Type}

def unresolved? (view : View α) : Expr → Option Name
  | literal _ => none
  | name n => if (view n.text).isSome then none else some n
  | unary _ e => e.unresolved? view
  | binary l _ r | logical l _ r => (l.unresolved? view).or (r.unresolved? view)

theorem unresolved?_eq_find? (view : View α) (e : Expr) :
    e.unresolved? view = e.names.find? fun n => (view n.text).isNone := by
  induction e with
  | literal => rfl
  | name n => cases h : view n.text <;> simp [unresolved?, names, h]
  | unary _ _ ih => simpa [unresolved?, names] using ih
  | binary l _ r ihl ihr => simp [unresolved?, names, ihl, ihr, List.find?_append]
  | logical l _ r ihl ihr => simp [unresolved?, names, ihl, ihr, List.find?_append]

def unboundError (n : Name) : ScriptError := ⟨.unknownName n.text, some n.location⟩

def tooDeep : Failure := .fault (.tooDeep .expression)

def checkBound (view : View α) : (room : Nat) → Expr → Except Failure Unit
  | 0, _ => .error tooDeep
  | _ + 1, literal _ => .ok ()
  | _ + 1, name n => if (view n.text).isSome then .ok () else .error (.error (unboundError n))
  | room + 1, unary _ e => checkBound view room e
  | room + 1, binary l _ r | room + 1, logical l _ r =>
    match checkBound view room l with
    | .error f => .error f
    | .ok () => checkBound view room r

theorem exists_room {e : Expr} {room : Nat} (h : e.depth ≤ room) : ∃ r, room = r + 1 :=
  ⟨room - 1, by have := e.depth_pos; omega⟩

theorem checkBound_eq (view : View α) {room : Nat} {e : Expr} (h : e.depth ≤ room) :
    e.checkBound view room = match e.unresolved? view with
      | some n => .error (.error (unboundError n))
      | none => .ok () := by
  induction e generalizing room with
  | literal =>
    obtain ⟨room, rfl⟩ := exists_room h
    rfl
  | name n =>
    obtain ⟨room, rfl⟩ := exists_room h
    cases hn : view n.text <;> simp [checkBound, unresolved?, hn]
  | unary op e ih =>
    obtain ⟨room, rfl⟩ := exists_room h
    simp only [depth] at h
    simpa [checkBound, unresolved?] using ih (by omega)
  | binary l op r ihl ihr =>
    obtain ⟨room, rfl⟩ := exists_room h
    simp only [depth] at h
    rw [checkBound, unresolved?, ihl (by omega), ihr (by omega)]
    cases unresolved? view l <;> rfl
  | logical l op r ihl ihr =>
    obtain ⟨room, rfl⟩ := exists_room h
    simp only [depth] at h
    rw [checkBound, unresolved?, ihl (by omega), ihr (by omega)]
    cases unresolved? view l <;> rfl

def decides [Operand α] (op : Token) (left : α) : Bool :=
  if op.kind = .wordOr then Operand.isTruthy left else !Operand.isTruthy left

def evaluate [Operand α] (view : View α) : (room : Nat) → Expr → Except Failure α
  | 0, _ => .error tooDeep
  | _ + 1, literal v => .ok (Operand.ofValue v)
  | _ + 1, name n =>
    match view n.text with
    | some a => .ok a
    | none => .error (.error (unboundError n))
  | room + 1, unary op e =>
    match evaluate view room e with
    | .ok a => Operand.applyUnary op a
    | .error f => .error f
  | room + 1, binary l op r =>
    match evaluate view room l with
    | .error f => .error f
    | .ok a =>
      match evaluate view room r with
      | .error f => .error f
      | .ok b => Operand.applyBinary op a b
  | room + 1, logical l op r =>
    match evaluate view room l with
    | .error f => .error f
    | .ok a =>
      if decides op a then
        match checkBound view room r with
        | .error f => .error f
        | .ok () => .ok a
      else evaluate view room r

theorem evaluate_congr_room [Operand α] (view : View α) {room room' : Nat} {e : Expr}
    (h : e.depth ≤ room) (h' : e.depth ≤ room') : e.evaluate view room = e.evaluate view room' := by
  induction e generalizing room room' with
  | literal =>
    obtain ⟨room, rfl⟩ := exists_room h
    obtain ⟨room', rfl⟩ := exists_room h'
    rfl
  | name =>
    obtain ⟨room, rfl⟩ := exists_room h
    obtain ⟨room', rfl⟩ := exists_room h'
    rfl
  | unary op e ih =>
    obtain ⟨room, rfl⟩ := exists_room h
    obtain ⟨room', rfl⟩ := exists_room h'
    simp only [depth] at h h'
    rw [evaluate, evaluate, ih (by omega) (by omega : e.depth ≤ room')]
  | binary l op r ihl ihr =>
    obtain ⟨room, rfl⟩ := exists_room h
    obtain ⟨room', rfl⟩ := exists_room h'
    simp only [depth] at h h'
    rw [evaluate, evaluate, ihl (by omega) (by omega : l.depth ≤ room'),
      ihr (by omega) (by omega : r.depth ≤ room')]
  | logical l op r ihl ihr =>
    obtain ⟨room, rfl⟩ := exists_room h
    obtain ⟨room', rfl⟩ := exists_room h'
    simp only [depth] at h h'
    rw [evaluate, evaluate, ihl (by omega) (by omega : l.depth ≤ room'),
      ihr (by omega) (by omega : r.depth ≤ room'), checkBound_eq view (by omega : r.depth ≤ room),
      checkBound_eq view (by omega : r.depth ≤ room')]

def depthLimit : Nat := 1000

def value [Operand α] (view : View α) (e : Expr) : Except Failure α := e.evaluate view depthLimit

end Expr

end ScopedScript
