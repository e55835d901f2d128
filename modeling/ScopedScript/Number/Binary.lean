/-!
# Binary numbers

Numbers are IEEE 754 doubles. `parts` reads the sign, the mantissa and the exponent off the bits of
a number, and `ofNat` rounds a natural number to the nearest double, a tie going to the even
mantissa and a value past the largest double to infinity. Both work on natural numbers only, so
that statements about them are statements of arithmetic.
-/

-- `Nat.pow` is written out here: what `^` stands for depends on the modules that are imported

namespace ScopedScript.Number

inductive Parts
  | nan
  | infinite (negative : Bool)
  | finite (negative : Bool) (mantissa : Nat) (exponent : Int)
deriving DecidableEq

def Parts.ofBits (bits : Nat) : Parts :=
  let negative := decide (Nat.pow 2 63 ≤ bits)
  let exponent : Nat := bits / Nat.pow 2 52 % Nat.pow 2 11
  let fraction := bits % Nat.pow 2 52
  if exponent = 2047 then
    if fraction = 0 then .infinite negative else .nan
  else if exponent = 0 then
    .finite negative fraction (-1074)
  else
    .finite negative (Nat.pow 2 52 + fraction) ((exponent : Int) - 1075)

def parts (x : Float) : Parts := .ofBits x.toBits.toNat

def infinityBits : Nat := 2047 * Nat.pow 2 52

/-- A quotient by a power of two, rounded to the nearest integer and from halfway to the even
one. -/
def roundShift (n shift : Nat) : Nat :=
  let unit := Nat.pow 2 shift
  let quotient := n / unit
  let rest := 2 * (n % unit)
  if rest > unit ∨ (rest = unit ∧ quotient % 2 = 1) then quotient + 1 else quotient

/-- The bits of the double nearest to a natural number. The exponent field is put one short of its
value because the leading bit of the mantissa, or its carry when it is rounded up to a power of
two, completes it. -/
def natBits (n : Nat) : Nat :=
  if n = 0 then 0
  else
    let top := n.log2
    let mantissa := if top ≤ 52 then n * Nat.pow 2 (52 - top) else roundShift n (top - 52)
    min ((top + 1022) * Nat.pow 2 52 + mantissa) infinityBits

def ofNat (n : Nat) : Float := Float.ofBits (UInt64.ofNat (natBits n))

def floorScaled (mantissa : Nat) : (exponent : Int) → Nat
  | .ofNat k => mantissa * Nat.pow 2 k
  | .negSucc k => mantissa / Nat.pow 2 (k + 1)

def isWholeScaled (mantissa : Nat) : (exponent : Int) → Bool
  | .ofNat _ => true
  | .negSucc k => mantissa % Nat.pow 2 (k + 1) == 0

def Parts.whole? : Parts → Option Int
  | .finite negative mantissa exponent =>
    if isWholeScaled mantissa exponent then
      let n : Int := floorScaled mantissa exponent
      some (if negative then -n else n)
    else none
  | _ => none

def whole? (x : Float) : Option Int := (parts x).whole?

def floorMagnitude? (x : Float) : Option Nat :=
  match parts x with
  | .finite _ mantissa exponent => some (floorScaled mantissa exponent)
  | _ => none

theorem natBits_le (n : Nat) : natBits n ≤ infinityBits := by
  unfold natBits
  split
  · exact Nat.zero_le _
  · exact Nat.min_le_right _ _

end ScopedScript.Number
