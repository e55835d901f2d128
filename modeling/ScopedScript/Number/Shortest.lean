import ScopedScript.Number.Binary

/-!
# Shortest decimals

The shortest decimal of a positive finite number is the one with the fewest digits among those that
round to the number; of several with that many digits it is the nearest. A double `m · 2 ^ e` is
the only double within half a unit of its mantissa (a quarter below a power of two), the ends
included when `m` is even, so the search runs over the decimal grids, coarsest first, in exact
arithmetic.
-/

namespace ScopedScript.Number

structure Decimal where
  digits : Nat
  exponent : Int
deriving DecidableEq

structure Interval where
  low : Nat
  value : Nat
  high : Nat
  closed : Bool

def Interval.contains (i : Interval) (x : Nat) : Bool :=
  if i.closed then i.low ≤ x && x ≤ i.high else i.low < x && x < i.high

/-- The multiple of `10 ^ k` in the interval that is nearest to its value, as digits; from halfway
the even one. Only the two neighbours of the value can be. -/
def Interval.nearest? (i : Interval) (k : Nat) : Option Nat :=
  let step := Nat.pow 10 k
  let lower := i.value / step
  let upper := lower + 1
  match i.contains (lower * step), i.contains (upper * step) with
  | true, true =>
    let down := i.value - lower * step
    let up := upper * step - i.value
    some (if down < up ∨ (down = up ∧ lower % 2 = 0) then lower else upper)
  | true, false => some lower
  | false, true => some upper
  | false, false => none

def Interval.coarsest (i : Interval) : (k : Nat) → Nat × Nat
  | 0 => (i.value, 0)
  | k + 1 =>
    match i.nearest? (k + 1) with
    | some digits => (digits, k + 1)
    | none => i.coarsest k

/-- The values that round to `mantissa · 2 ^ exponent`, in units of `10 ^ scale`. Quarters of a
unit of the mantissa are whole there. -/
def roundingInterval (mantissa : Nat) (exponent : Int) : Interval × Int :=
  let quarter := exponent - 2
  let (factor, scale) : Nat × Int :=
    match quarter with
    | .ofNat k => (Nat.pow 2 k, 0)
    | .negSucc k => (Nat.pow 5 (k + 1), quarter)
  let below := if mantissa = Nat.pow 2 52 ∧ -1074 < exponent then 1 else 2
  (⟨(4 * mantissa - below) * factor, 4 * mantissa * factor, (4 * mantissa + 2) * factor,
    mantissa % 2 == 0⟩, scale)

def shortest (mantissa : Nat) (exponent : Int) : Decimal :=
  let (interval, scale) := roundingInterval mantissa exponent
  let (digits, k) := interval.coarsest (Nat.toDigits 10 interval.value).length
  ⟨digits, scale + k⟩

end ScopedScript.Number
