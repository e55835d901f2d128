import ScopedScript.Number.Text
import ScopedScript.Proofs.Number.Whole

namespace ScopedScript.Number

section

open Float.Model (Format UnpackedFloat)
open Float.Model.UnpackedFloat

variable (b : BitVec Format.binary64.numBits)

theorem toNat_unpackExponent : (unpackExponent b).toNat = b.toNat / 2 ^ 52 % 2 ^ 11 := by
  rw [unpackExponent_def]
  simp [BitVec.extractLsb'_toNat, Nat.shiftRight_eq_div_pow]

theorem isFinite_unpack :
    (unpack Format.binary64 b).isFinite ↔ b.toNat / 2 ^ 52 % 2 ^ 11 ≠ 2047 := by
  have full : unpackExponent b = -1#_ ↔ b.toNat / 2 ^ 52 % 2 ^ 11 = 2047 := by
    rw [← BitVec.toNat_inj, toNat_unpackExponent]
    rfl
  rw [ne_eq, ← full]
  simp only [unpack]
  split
  · rename_i h
    split <;> exact iff_of_false nofun (not_not.2 h)
  · rename_i h
    split
    · split <;> exact iff_of_true rfl h
    · exact iff_of_true rfl h

end

theorem isFinite_iff_parts {x : Float} :
    x.isFinite ↔ ∃ negative mantissa exponent, parts x = .finite negative mantissa exponent := by
  have unpacked : x.isFinite =
      (Float.Model.UnpackedFloat.unpack .binary64 x.toBits.toBitVec).isFinite := rfl
  rw [unpacked, isFinite_unpack, UInt64.toNat_toBitVec, parts, Parts.ofBits]
  simp only [Nat.pow_eq]
  split
  · rename_i h
    refine iff_of_false (not_not.2 h) ?_
    rintro ⟨negative, mantissa, exponent, finite⟩
    split at finite <;> cases finite
  · rename_i h
    split <;> exact iff_of_true h ⟨_, _, _, rfl⟩

theorem digitChar_ne_zero {n : Nat} (h : n ≠ 0) (small : n < 10) : n.digitChar ≠ '0' := by
  have digits : ∀ n < 10, n ≠ 0 → n.digitChar ≠ '0' := by decide
  exact digits n small h

theorem natDigits_leading {n : Nat} (h : n ≠ 0) : ∃ c cs, natDigits n = c :: cs ∧ c ≠ '0' := by
  unfold natDigits
  induction n using Nat.strong_induction_on with
  | _ n ih =>
    by_cases small : n < 10
    · exact ⟨_, [], Nat.toDigits_of_lt_base small, digitChar_ne_zero h small⟩
    · obtain ⟨c, cs, digits, leading⟩ := ih (n / 10) (by omega) (by omega)
      rw [Nat.toDigits_of_base_le (by decide) (Nat.not_lt.1 small), digits]
      exact ⟨c, _, rfl, leading⟩

namespace Interval

variable {i : Interval}

theorem ne_zero_of_contains (low : 0 < i.low) {x : Nat} (h : i.contains x) : x ≠ 0 := by
  rintro rfl
  unfold contains at h
  split at h
  · simp only [Bool.and_eq_true, decide_eq_true_eq] at h
    omega
  · simp at h

theorem nearest?_ne_zero (low : 0 < i.low) {k digits : Nat} (h : i.nearest? k = some digits) :
    digits ≠ 0 := by
  have inside {d : Nat} (hd : i.contains (d * Nat.pow 10 k)) : d ≠ 0 := by
    rintro rfl
    exact ne_zero_of_contains low hd (Nat.zero_mul _)
  simp only [nearest?] at h
  split at h
  · rename_i lower upper
    obtain rfl := Option.some.inj h
    split
    · exact inside lower
    · exact inside upper
  · rename_i lower _
    exact Option.some.inj h ▸ inside lower
  · rename_i _ upper
    exact Option.some.inj h ▸ inside upper
  · cases h

theorem coarsest_ne_zero (low : 0 < i.low) (value : i.value ≠ 0) (k : Nat) :
    (i.coarsest k).1 ≠ 0 := by
  induction k with
  | zero => exact value
  | succ k ih =>
    rw [coarsest]
    split
    · rename_i digits h
      exact nearest?_ne_zero low h
    · exact ih

end Interval

theorem roundingInterval_positive {mantissa : Nat} (h : mantissa ≠ 0) (exponent : Int) :
    0 < (roundingInterval mantissa exponent).1.low ∧
      (roundingInterval mantissa exponent).1.value ≠ 0 := by
  have ends {below factor : Nat} (hb : below ≤ 2) (hf : 0 < factor) :
      0 < (4 * mantissa - below) * factor ∧ 4 * mantissa * factor ≠ 0 :=
    ⟨Nat.mul_pos (by omega) hf, Nat.mul_ne_zero (by omega) (Nat.ne_of_gt hf)⟩
  have below : (if mantissa = Nat.pow 2 52 ∧ -1074 < exponent then 1 else 2) ≤ 2 := by
    split <;> decide
  rw [roundingInterval]
  generalize exponent - 2 = quarter
  cases quarter with
  | ofNat k => exact ends below (Nat.two_pow_pos k)
  | negSucc k => exact ends below (Nat.pow_pos (by decide))

theorem shortest_leading {mantissa : Nat} (h : mantissa ≠ 0) (exponent : Int) :
    ∃ c cs, natDigits (shortest mantissa exponent).digits = c :: cs ∧ c ≠ '0' := by
  obtain ⟨low, value⟩ := roundingInterval_positive h exponent
  exact natDigits_leading (Interval.coarsest_ne_zero low value _)

end ScopedScript.Number
