import ScopedScript.Error

namespace ScopedScript

class Operand (α : Type) where
  ofValue : Value → α
  isTruthy : α → Bool
  applyUnary : Token → α → Except Failure α
  applyBinary : Token → α → α → Except Failure α

/-- What an operator sees of its operands where one of them is a text. -/
structure TextOperand where
  typeName : String
  written : String
  text? : Option String
  number? : Option Numeral

namespace Numeral

def text : Numeral → String
  | real x => Value.numberText x
  | whole n => Number.intText n

end Numeral

def Failure.ofOverflow (overflow : Numeral.Overflow) : Failure := .fault (.numberOverflow overflow)

namespace TextOperand

/-- The most characters a text can have for which there is room. -/
def textCapacity : Nat := Nat.pow 10 10

def lengthLimit : Nat := Nat.pow 2 63 - 1

def repeatText (s : String) (count : Nat) : Except Fault String :=
  if count > lengthLimit then .error .repetitionOverflow
  else if s.isEmpty then .ok ""
  else if count > lengthLimit / s.length then .error .lengthOverflow
  else if s.length * count > textCapacity then .error .outOfMemory
  else .ok (String.join (List.replicate count s))

def withoutFirst (part : List Char) : (text : List Char) → List Char
  | [] => []
  | c :: cs =>
    if part.isPrefixOf (c :: cs) then (c :: cs).drop part.length else c :: withoutFirst part cs

def sameText (v w : TextOperand) : Bool :=
  match v.text?, w.text? with
  | some s, some t => s == t
  | _, _ => false

def applyRepetition (op : Token) (s : String) (count : Numeral) : Except Failure Value :=
  match count.repetitions with
  | .error overflow => .error (.ofOverflow overflow)
  | .ok none => .error (.ofCause (.repetitionCount count.text) op.location)
  | .ok (some n) =>
    match repeatText s n with
    | .ok t => .ok (.text t)
    | .error f => .error (.fault f)

def apply (op : Token) (v w : TextOperand) : Except Failure Value :=
  match op.kind with
  | .plus => .ok (.text (v.written ++ w.written))
  | .minus => .ok (.text (String.ofList (withoutFirst w.written.toList v.written.toList)))
  | .star =>
    match v.text?, v.number?, w.text?, w.number? with
    | some s, _, _, some n => applyRepetition op s n
    | _, some n, some s, _ => applyRepetition op s n
    | _, _, _, _ => .error (.ofCause .repetitionOperands op.location)
  | .wordIs => .ok (.bool (sameText v w))
  | .wordNot => .ok (.bool (!sameText v w))
  | _ => .error (.ofCause (.textOperator v.typeName op.lexeme w.typeName) op.location)

end TextOperand

def Token.noPrefix (op : Token) : Failure := .ofCause (.prefixOperator op.lexeme) op.location

def Token.noNegation (op : Token) (typeName : String) : Failure :=
  .ofCause (.negation typeName) op.location

def Token.noNumberOperator (op : Token) : Failure :=
  .ofCause (.numberOperator op.lexeme) op.location

def Token.noOperands (op : Token) (left right : String) : Failure :=
  .ofCause (.operands left op.lexeme right) op.location

namespace Value

def text? : Value → Option String
  | text s => some s
  | _ => none

def textOperand (v : Value) : TextOperand where
  typeName := v.typeName
  written := v.toText
  text? := v.text?
  number? := match v with
    | number x => some (.real x)
    | _ => none

def applyUnary (op : Token) (v : Value) : Except Failure Value :=
  if op.kind ≠ .minus then .error op.noPrefix
  else
    match v with
    | number x => .ok (number (-x))
    | v => .error (op.noNegation v.typeName)

def applyNumbers (op : Token) (x y : Float) : Except Failure Value :=
  match op.kind with
  | .plus => .ok (number (x + y))
  | .minus => .ok (number (x - y))
  | .star => .ok (number (x * y))
  | .slash => .ok (number (x / y))
  | .greater => .ok (bool (x > y))
  | .less => .ok (bool (x < y))
  | .greaterEqual => .ok (bool (x ≥ y))
  | .lessEqual => .ok (bool (x ≤ y))
  | .wordIs => .ok (bool (x == y))
  | .wordNot => .ok (bool (x != y))
  | _ => .error op.noNumberOperator

def applyBinary (op : Token) (v w : Value) : Except Failure Value :=
  match v, w with
  | number x, number y => applyNumbers op x y
  | text _, _ | _, text _ => v.textOperand.apply op w.textOperand
  | _, _ => .error (op.noOperands v.typeName w.typeName)

instance : Operand Value := ⟨id, isTruthy, applyUnary, applyBinary⟩

end Value

end ScopedScript
