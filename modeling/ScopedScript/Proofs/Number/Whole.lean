import Mathlib
import ScopedScript.Text.Digits
import ScopedScript.Value

/-!
# Whole doubles and their digits

The double nearest to a natural number is infinite or a whole number, and a whole number that is a
double is nearest to itself: `whole?_ofNat`. The digits it is written with are read back as the same
double: `numberText_ofNat`.
-/

namespace ScopedScript

namespace Number

/-! ## Bits of finite numbers -/

open Float.Model (Format) in
open Float.Model.UnpackedFloat in
theorem unpackExponent_ne {b : BitVec Format.binary64.numBits} (h : b.toNat < infinityBits) :
    unpackExponent b ≠ -1#_ := by
  intro full
  have exponent := congrArg BitVec.toNat full
  rw [unpackExponent_def] at exponent
  simp only [infinityBits, Nat.pow_eq] at h
  simp [BitVec.extractLsb'_toNat, Nat.shiftRight_eq_div_pow] at exponent
  generalize b.toNat = n at h exponent
  omega

theorem toBits_ofBits {b : Nat} (h : b < infinityBits) :
    (Float.ofBits (UInt64.ofNat b)).toBits.toNat = b := by
  have small : b < 2 ^ 64 := Nat.lt_trans h (by decide)
  have nat : (UInt64.ofNat b).toBitVec.toNat = b := UInt64.toNat_ofNat_of_lt' small
  have valid : Float.Model.Format.binary64.Valid (UInt64.ofNat b).toBitVec :=
    ⟨fun full => absurd full (unpackExponent_ne (nat.symm ▸ h))⟩
  have same := Float.Model.UnpackedFloat.pack_unpack_of_valid valid
  have bits : (Float.ofBits (UInt64.ofNat b)).toBits = UInt64.ofNat b :=
    UInt64.toBitVec_inj.1 same
  rw [bits]
  exact nat

theorem natBits_lt_of_isFinite {n : Nat} (h : (ofNat n).isFinite) : natBits n < infinityBits := by
  rcases Nat.lt_or_eq_of_le (natBits_le n) with hlt | heq
  · exact hlt
  · rw [ofNat, heq] at h
    exact absurd h (by decide)

theorem parts_ofNat {n : Nat} (h : natBits n < infinityBits) :
    parts (ofNat n) = .ofBits (natBits n) := by
  rw [parts, ofNat, toBits_ofBits h]

/-! ## Rounding -/

theorem ofBits_normal {field mantissa : Nat} (hlow : 2 ^ 52 ≤ mantissa)
    (hhigh : mantissa < 2 ^ 53) (h : field * 2 ^ 52 + mantissa < infinityBits) :
    Parts.ofBits (field * 2 ^ 52 + mantissa) = .finite false mantissa ((field : Int) - 1074) := by
  simp only [infinityBits, Nat.pow_eq] at h
  -- the leading bit of the mantissa adds one to the exponent field
  have exponent : (field * 2 ^ 52 + mantissa) / 2 ^ 52 % 2 ^ 11 = field + 1 := by omega
  have fraction : (field * 2 ^ 52 + mantissa) % 2 ^ 52 = mantissa - 2 ^ 52 := by omega
  have positive : ¬ 2 ^ 63 ≤ field * 2 ^ 52 + mantissa := by omega
  have finite : field + 1 ≠ 2047 := by omega
  simp only [Parts.ofBits, Nat.pow_eq, exponent, fraction, if_neg finite,
    if_neg (Nat.succ_ne_zero field), decide_eq_false positive, Parts.finite.injEq, true_and]
  omega

theorem whole?_scaled (mantissa k : Nat) :
    (Parts.finite false mantissa k).whole? = some ((mantissa * 2 ^ k : Nat) : Int) := rfl

theorem whole?_unscaled (n k : Nat) :
    (Parts.finite false (n * 2 ^ k) (-k)).whole? = some (n : Int) := by
  cases k with
  | zero => simpa using whole?_scaled n 0
  | succ k =>
    have exponent : -((k + 1 : Nat) : Int) = Int.negSucc k := rfl
    have unit : 0 < 2 ^ (k + 1) := Nat.two_pow_pos _
    rw [exponent]
    simp [Parts.whole?, isWholeScaled, floorScaled, Nat.pow_eq, Nat.mul_div_cancel _ unit]

theorem roundShift_mul (mantissa k : Nat) : roundShift (mantissa * 2 ^ k) k = mantissa := by
  have unit : 0 < 2 ^ k := Nat.two_pow_pos _
  simp only [roundShift, Nat.pow_eq, Nat.mul_mod_left, Nat.mul_div_cancel _ unit]
  rw [if_neg]
  omega

theorem roundShift_bounds (n k : Nat) :
    n / 2 ^ k ≤ roundShift n k ∧ roundShift n k ≤ n / 2 ^ k + 1 := by
  simp only [roundShift, Nat.pow_eq]
  split <;> omega

theorem log2_mul_two_pow {n : Nat} (h : n ≠ 0) (k : Nat) : (n * 2 ^ k).log2 = n.log2 + k := by
  have unit : 0 < 2 ^ k := Nat.two_pow_pos _
  have nonzero : n * 2 ^ k ≠ 0 := by positivity
  obtain ⟨low, high⟩ := (Nat.log2_eq_iff h).1 rfl
  rw [Nat.log2_eq_iff nonzero, Nat.add_right_comm, Nat.pow_add, Nat.pow_add]
  exact ⟨Nat.mul_le_mul_right _ low, Nat.mul_lt_mul_of_pos_right high unit⟩

theorem log2_mantissa {mantissa : Nat} (hlow : 2 ^ 52 ≤ mantissa) (hhigh : mantissa < 2 ^ 53) :
    mantissa.log2 = 52 :=
  (Nat.log2_eq_iff (by omega)).2 ⟨hlow, hhigh⟩

theorem natBits_scaled {mantissa : Nat} (hlow : 2 ^ 52 ≤ mantissa) (hhigh : mantissa < 2 ^ 53)
    (k : Nat) :
    natBits (mantissa * 2 ^ k) = min ((k + 1074) * 2 ^ 52 + mantissa) infinityBits := by
  have nonzero : mantissa * 2 ^ k ≠ 0 := by positivity
  have length : (mantissa * 2 ^ k).log2 = k + 52 := by
    rw [log2_mul_two_pow (by omega), log2_mantissa hlow hhigh, Nat.add_comm]
  simp only [natBits, if_neg nonzero, length, Nat.pow_eq]
  by_cases hk : k = 0
  · subst hk
    simp
  · have long : ¬ k + 52 ≤ 52 := by omega
    rw [if_neg long, Nat.add_sub_cancel, roundShift_mul]

theorem natBits_short {n k : Nat} (nonzero : n ≠ 0) (hk : n.log2 + k = 52) :
    2 ^ 52 ≤ n * 2 ^ k ∧ n * 2 ^ k < 2 ^ 53 ∧
      natBits n = min ((n.log2 + 1022) * 2 ^ 52 + n * 2 ^ k) infinityBits := by
  have unit : 0 < 2 ^ k := Nat.two_pow_pos _
  have product : n * 2 ^ k ≠ 0 := by positivity
  have bounds := (Nat.log2_eq_iff product).1 ((log2_mul_two_pow nonzero k).trans hk)
  have short : n.log2 ≤ 52 := by omega
  have length : 52 - n.log2 = k := by omega
  refine ⟨bounds.1, bounds.2, ?_⟩
  simp only [natBits, if_neg nonzero, if_pos short, length, Nat.pow_eq]

theorem natBits_large {n : Nat} (h : 52 < n.log2) : ∃ mantissa k, 2 ^ 52 ≤ mantissa ∧
    mantissa < 2 ^ 53 ∧ natBits n = natBits (mantissa * 2 ^ k) := by
  obtain ⟨k, hk⟩ : ∃ k, n.log2 = k + 52 := ⟨n.log2 - 52, by omega⟩
  have nonzero : n ≠ 0 := by
    rintro rfl
    simp at h
  have long : ¬ k + 52 ≤ 52 := by omega
  have bits : natBits n = min ((k + 1074) * 2 ^ 52 + roundShift n k) infinityBits := by
    simp only [natBits, if_neg nonzero, hk, if_neg long, Nat.add_sub_cancel, Nat.pow_eq]
  have unit : 0 < 2 ^ k := Nat.two_pow_pos _
  have bounds : 2 ^ (k + 52) ≤ n ∧ n < 2 ^ (k + 52 + 1) := (Nat.log2_eq_iff nonzero).1 hk
  rw [Nat.add_assoc, Nat.pow_add, Nat.pow_add] at bounds
  have low : 2 ^ 52 ≤ n / 2 ^ k :=
    (Nat.le_div_iff_mul_le unit).2 (Nat.mul_comm _ _ ▸ bounds.1)
  have high : n / 2 ^ k < 2 ^ 53 :=
    (Nat.div_lt_iff_lt_mul unit).2 (Nat.mul_comm _ _ ▸ bounds.2)
  have rounded := roundShift_bounds n k
  by_cases carry : roundShift n k = 2 ^ 53
  · refine ⟨2 ^ 52, k + 1, Nat.le_refl _, by decide, ?_⟩
    have carried : (k + 1074) * 2 ^ 52 + 2 ^ 53 = (k + 1 + 1074) * 2 ^ 52 + 2 ^ 52 := by omega
    rw [bits, carry, natBits_scaled (Nat.le_refl _) (by decide), carried]
  · have low' : 2 ^ 52 ≤ roundShift n k := by omega
    have high' : roundShift n k < 2 ^ 53 := by omega
    exact ⟨roundShift n k, k, low', high', by rw [bits, natBits_scaled low' high']⟩

theorem whole?_ofNat {n : Nat} (h : natBits n < infinityBits) :
    ∃ m : Nat, whole? (ofNat n) = some (m : Int) ∧ ofNat m = ofNat n := by
  rw [whole?, parts_ofNat h]
  by_cases zero : n = 0
  · have parts : Parts.ofBits (natBits n) = .finite false 0 (-1074) := by rw [zero]; rfl
    have whole := whole?_unscaled 0 1074
    rw [Nat.zero_mul] at whole
    exact ⟨0, by rw [parts]; exact whole, by rw [zero]⟩
  by_cases large : 52 < n.log2
  · obtain ⟨mantissa, k, hlow, hhigh, bits⟩ := natBits_large large
    refine ⟨mantissa * 2 ^ k, ?_, by rw [ofNat, ofNat, bits]⟩
    rw [bits, natBits_scaled hlow hhigh] at h ⊢
    have finite := (min_lt_iff.1 h).resolve_right (Nat.lt_irrefl _)
    have exponent : ((k + 1074 : Nat) : Int) - 1074 = k := by omega
    rw [Nat.min_eq_left (Nat.le_of_lt finite), ofBits_normal hlow hhigh finite, exponent,
      whole?_scaled]
  · refine ⟨n, ?_, rfl⟩
    obtain ⟨k, hk⟩ : ∃ k, n.log2 + k = 52 := ⟨52 - n.log2, by omega⟩
    obtain ⟨hlow, hhigh, bits⟩ := natBits_short zero hk
    rw [bits] at h ⊢
    have finite := (min_lt_iff.1 h).resolve_right (Nat.lt_irrefl _)
    have exponent : ((n.log2 + 1022 : Nat) : Int) - 1074 = -k := by omega
    rw [Nat.min_eq_left (Nat.le_of_lt finite), ofBits_normal hlow hhigh finite, exponent,
      whole?_unscaled]

/-- A double is the whole number `n`: its sign and its size `mantissa · 2 ^ exponent` are those of
`n`. -/
def IsWhole (x : Float) (n : Int) : Prop :=
  ∃ negative mantissa exponent, parts x = .finite negative mantissa exponent ∧
    n.natAbs * Nat.pow 2 (-exponent).toNat = mantissa * Nat.pow 2 exponent.toNat ∧
    if negative then n ≤ 0 else 0 ≤ n

theorem scaled_of_natAbs {n mantissa : Nat} {exponent : Int}
    (h : n * Nat.pow 2 (-exponent).toNat = mantissa * Nat.pow 2 exponent.toNat) :
    isWholeScaled mantissa exponent ∧ floorScaled mantissa exponent = n := by
  cases exponent with
  | ofNat k =>
    have unit : (-Int.ofNat k).toNat = 0 := by simp
    rw [unit, Nat.pow_eq, Nat.pow_zero, Nat.mul_one] at h
    exact ⟨rfl, h.symm⟩
  | negSucc k =>
    have unit : 0 < Nat.pow 2 (k + 1) := Nat.two_pow_pos _
    obtain rfl : n * Nat.pow 2 (k + 1) = mantissa := h.trans (Nat.mul_one _)
    exact ⟨beq_iff_eq.2 (Nat.mul_mod_left ..), Nat.mul_div_cancel n unit⟩

theorem whole?_of_isWhole {x : Float} {n : Int} (h : IsWhole x n) : whole? x = some n := by
  obtain ⟨negative, mantissa, exponent, parts, size, sign⟩ := h
  obtain ⟨whole, floor⟩ := scaled_of_natAbs size
  rw [whole?, parts, Parts.whole?, if_pos whole, floor]
  cases negative with
  | false => exact congrArg some (Int.natAbs_of_nonneg sign)
  | true =>
    have same : -(n.natAbs : Int) = n := by rw [Int.ofNat_natAbs_of_nonpos sign, Int.neg_neg]
    exact congrArg some same

end Number

/-! ## Digits -/

namespace Text

theorem digitValue?_of_isDigit {c : Char} (h : c.isDigit) :
    digitValue? c = some (c.toNat - '0'.toNat) := by
  have range := h
  simp only [Char.isDigit, Bool.and_eq_true, decide_eq_true_eq, UInt32.le_iff_toNat_le] at range
  have ascii : c.toNat < 0x80 := Nat.lt_of_le_of_lt range.2 (by decide)
  simp only [digitValue?, if_pos ascii, if_pos h]
  rfl

theorem isDecimal_of_isDigit {c : Char} (h : c.isDigit) : isDecimal c := by
  rw [isDecimal, digitValue?_of_isDigit h]
  rfl

theorem isDigit_of_mem_natDigits {n : Nat} {c : Char} (h : c ∈ Number.natDigits n) : c.isDigit :=
  Nat.isDigit_of_mem_toDigits (by decide) (by decide) h

theorem digitsValue_natDigits (n : Nat) : digitsValue (Number.natDigits n) = n := by
  have same (cs : List Char) (h : ∀ c ∈ cs, c.isDigit) (value : Nat) :
      cs.foldl (fun n c => 10 * n + (digitValue? c).getD 0) value =
        Nat.ofDigitChars 10 cs value := by
    induction cs generalizing value with
    | nil => rfl
    | cons c cs ih =>
      rw [List.foldl_cons, digitValue?_of_isDigit (h c List.mem_cons_self),
        ih fun c hc => h c (List.mem_cons_of_mem _ hc)]
      rfl
  rw [digitsValue, same _ fun c hc => isDigit_of_mem_natDigits hc]
  exact Nat.ofDigitChars_ten_toDigits

end Text

theorem Value.numberText_ofNat {n : Nat} (h : Number.natBits n < Number.infinityBits) :
    ∃ m : Nat, numberText (Number.ofNat n) = String.ofList (Number.natDigits m) ∧
      Number.ofNat (Text.digitsValue (Number.natDigits m)) = Number.ofNat n := by
  obtain ⟨m, whole, same⟩ := Number.whole?_ofNat h
  refine ⟨m, ?_, by rw [Text.digitsValue_natDigits, same]⟩
  rw [numberText, whole]
  rfl

end ScopedScript
