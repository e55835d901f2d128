import ScopedScript.Number.Text

namespace ScopedScript

namespace Number

def shifted (n : Nat) : (k : Int) → Nat
  | .ofNat k => n * Nat.pow 2 k
  | .negSucc k => roundShift n (k + 1)

def scaledBits (n : Nat) (k : Int) : Nat :=
  if n = 0 then 0
  else
    let top := (n.log2 : Int) + k
    if top < -1022 then shifted n (k + 1074)
    else min ((top + 1022).toNat * Nat.pow 2 52 + shifted n (52 - (n.log2 : Int))) infinityBits

/-- The bits of the double nearest to a quotient. At least 55 bits of the quotient are computed,
and one bit more that tells whether anything is left. -/
def quotientBits (a b : Nat) : Nat :=
  let k := (a.log2 : Int) - b.log2 - 55
  let (a, b) := match k with
    | .ofNat k => (a, b * Nat.pow 2 k)
    | .negSucc k => (a * Nat.pow 2 (k + 1), b)
  scaledBits (2 * (a / b) + if a % b = 0 then 0 else 1) (k - 1)

def ofFiniteBits? (negative : Bool) (bits : Nat) : Option Float :=
  if bits < infinityBits then
    some (Float.ofBits (UInt64.ofNat (if negative then Nat.pow 2 63 + bits else bits)))
  else none

def ofInt? (n : Int) : Option Float := ofFiniteBits? (decide (n < 0)) (natBits n.natAbs)

def quotient? (a b : Int) : Option Float :=
  ofFiniteBits? (decide (a < 0) != decide (b < 0)) (quotientBits a.natAbs b.natAbs)

def Parts.compareWhole? (p : Parts) (n : Int) : Option Ordering :=
  match p with
  | .nan => none
  | .infinite negative => some (if negative then .lt else .gt)
  | .finite negative mantissa exponent =>
    let m : Int := if negative then -mantissa else mantissa
    match exponent with
    | .ofNat k => some (compare (m * Nat.pow 2 k) n)
    | .negSucc k => some (compare m (n * Nat.pow 2 (k + 1)))

end Number

inductive Numeral
  | real (x : Float)
  | whole (n : Int)
deriving DecidableEq

namespace Numeral

inductive Overflow
  | whole
  | quotient
deriving DecidableEq

def toReal : Numeral → Except Overflow Float
  | real x => .ok x
  | whole n =>
    match Number.ofInt? n with
    | some x => .ok x
    | none => .error .whole

def negate : Numeral → Numeral
  | real x => real (-x)
  | whole n => whole (-n)

def onReals (f : Float → Float → Float) (a b : Numeral) : Except Overflow Numeral := do
  let x ← a.toReal
  let y ← b.toReal
  pure (real (f x y))

def combine (exact : Int → Int → Int) (f : Float → Float → Float) :
    Numeral → Numeral → Except Overflow Numeral
  | whole m, whole n => .ok (whole (exact m n))
  | a, b => onReals f a b

def divide (a b : Numeral) : Except Overflow Numeral :=
  match a, b with
  | whole m, whole n =>
    if n = 0 then onReals (· / ·) a b
    else
      match Number.quotient? m n with
      | some x => .ok (real x)
      | none => .error .quotient
  | _, _ => onReals (· / ·) a b

def compare? : Numeral → Numeral → Option Ordering
  | real x, real y =>
    if x < y then some .lt else if x > y then some .gt else if x == y then some .eq else none
  | whole m, whole n => some (compare m n)
  | real x, whole n => (Number.parts x).compareWhole? n
  | whole n, real x => ((Number.parts x).compareWhole? n).map Ordering.swap

/-- How often something is repeated; none for a negative number, an infinity and a NaN. The fraction
of a number is dropped. -/
def repetitions : Numeral → Except Overflow (Option Nat)
  | real x => .ok (if x < 0 then none else Number.floorMagnitude? x)
  | whole n =>
    if n < 0 then .ok none
    else do
      let _ ← (whole n).toReal
      pure (some n.toNat)

end Numeral

end ScopedScript
