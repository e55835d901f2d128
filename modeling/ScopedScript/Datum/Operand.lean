import ScopedScript.Datum.Inspect
import ScopedScript.Expr.Eval

namespace ScopedScript.Datum

def textOperand (d : Datum) : TextOperand := ⟨d.typeName, d.toText, d.text?, d.number?⟩

def applyUnary (op : Token) (d : Datum) : Except Failure Datum :=
  if op.kind ≠ .minus then .error op.noPrefix
  else
    match d.number? with
    | some n => .ok (ofNumeral n.negate)
    | none => .error (op.noNegation d.typeName)

def ofResult : Except Numeral.Overflow Numeral → Except Failure Datum
  | .ok n => .ok (ofNumeral n)
  | .error overflow => .error (.ofOverflow overflow)

def applyNumerals (op : Token) (m n : Numeral) : Except Failure Datum :=
  let order := m.compare? n
  let test (holds : Bool) : Except Failure Datum := .ok (value (.bool holds))
  match op.kind with
  | .plus => ofResult (Numeral.combine (· + ·) (· + ·) m n)
  | .minus => ofResult (Numeral.combine (· - ·) (· - ·) m n)
  | .star => ofResult (Numeral.combine (· * ·) (· * ·) m n)
  | .slash => ofResult (m.divide n)
  | .greater => test (order == some .gt)
  | .less => test (order == some .lt)
  | .greaterEqual => test (order == some .gt || order == some .eq)
  | .lessEqual => test (order == some .lt || order == some .eq)
  | .wordIs => test (order == some .eq)
  | .wordNot => test (order != some .eq)
  | _ => .error op.noNumberOperator

def applyBinary (op : Token) (a b : Datum) : Except Failure Datum :=
  match a, b with
  | value v, value w => (v.applyBinary op w).map value
  | _, _ =>
    match a.number?, b.number? with
    | some m, some n => applyNumerals op m n
    | _, _ =>
      if a.text?.isSome || b.text?.isSome then
        (a.textOperand.apply op b.textOperand).map value
      else .error (op.noOperands a.typeName b.typeName)

instance : Operand Datum := ⟨value, isTruthy, applyUnary, applyBinary⟩

theorem applyUnary_value (op : Token) (v : Value) :
    applyUnary op (value v) = (v.applyUnary op).map value := by
  unfold applyUnary Value.applyUnary
  split
  · rfl
  · cases v <;> rfl

theorem applyBinary_value (op : Token) (v w : Value) :
    applyBinary op (value v) (value w) = (v.applyBinary op w).map value := rfl

theorem checkBound_map_value (view : View Value) (room : Nat) (e : Expr) :
    e.checkBound (fun name => (view name).map value) room = e.checkBound view room := by
  induction e generalizing room with
  | literal => cases room <;> rfl
  | name n =>
    cases room with
    | zero => rfl
    | succ room => simp [Expr.checkBound]
  | unary _ e ih =>
    cases room with
    | zero => rfl
    | succ room => exact ih room
  | binary l _ r ihl ihr =>
    cases room with
    | zero => rfl
    | succ room => rw [Expr.checkBound, Expr.checkBound, ihl, ihr]
  | logical l _ r ihl ihr =>
    cases room with
    | zero => rfl
    | succ room => rw [Expr.checkBound, Expr.checkBound, ihl, ihr]

/-- Against values of scripts, evaluation of data gives what evaluation of values gives. -/
theorem evaluate_value (view : View Value) (room : Nat) (e : Expr) :
    e.evaluate (fun name => (view name).map value) room = (e.evaluate view room).map value := by
  induction e generalizing room with
  | literal => cases room <;> rfl
  | name n =>
    cases room with
    | zero => rfl
    | succ room =>
      rw [Expr.evaluate, Expr.evaluate]
      cases view n.text <;> rfl
  | unary op e ih =>
    cases room with
    | zero => rfl
    | succ room =>
      rw [Expr.evaluate, Expr.evaluate, ih]
      cases e.evaluate view room with
      | error => rfl
      | ok v => exact applyUnary_value op v
  | binary l op r ihl ihr =>
    cases room with
    | zero => rfl
    | succ room =>
      rw [Expr.evaluate, Expr.evaluate, ihl, ihr]
      cases l.evaluate view room with
      | error => rfl
      | ok v => cases r.evaluate view room <;> rfl
  | logical l op r ihl ihr =>
    cases room with
    | zero => rfl
    | succ room =>
      rw [Expr.evaluate, Expr.evaluate, ihl, ihr, checkBound_map_value]
      cases l.evaluate view room with
      | error => rfl
      | ok v =>
        have same : Expr.decides op (value v) = Expr.decides op v := rfl
        simp only [Except.map, same]
        split
        · cases r.checkBound view room <;> rfl
        · rfl

end ScopedScript.Datum
