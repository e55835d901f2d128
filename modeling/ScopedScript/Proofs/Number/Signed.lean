import ScopedScript.Proofs.Number.Whole

namespace ScopedScript

namespace Number

section

open Float.Model (Format UnpackedFloat)
open Float.Model.UnpackedFloat

variable {b : BitVec Format.binary64.numBits}

def flipped (b : BitVec Format.binary64.numBits) : BitVec Format.binary64.numBits :=
  packComponents Format.binary64 (-Sign.ofBitVec (unpackSign b)) (unpackExponent b)
    (unpackMantissa b)

theorem unpack_flipped :
    UnpackedFloat.unpack Format.binary64 (flipped b) =
      (UnpackedFloat.unpack Format.binary64 b).neg := by
  simp only [UnpackedFloat.unpack, flipped, unpackSign_packComponents,
    unpackExponent_packComponents, unpackMantissa_packComponents, Sign.ofBitVec_toBitVec]
  split
  · split <;> rfl
  · split
    · split <;> rfl
    · rfl

theorem toNat_packComponents (s : Sign) (e : BitVec 11) (m : BitVec 52) :
    (packComponents Format.binary64 s e m).toNat =
      s.toBitVec.toNat * 2 ^ 63 + (e.toNat * 2 ^ 52 + m.toNat) := by
  have append {v w : Nat} (b : BitVec v) (c : BitVec w) :
      (b ++ c).toNat = b.toNat * 2 ^ w + c.toNat := by
    rw [BitVec.toNat_append, ← Nat.shiftLeft_add_eq_or_of_lt c.isLt, Nat.shiftLeft_eq]
  have bits : (packComponents Format.binary64 s e m).toNat = (s.toBitVec ++ e ++ m).toNat := rfl
  rw [bits, append, append]
  omega

theorem toNat_flipped (h : b.toNat < 2 ^ 63) : (flipped b).toNat = 2 ^ 63 + b.toNat := by
  have same := congrArg BitVec.toNat (packComponents_unpackSign_unpackExponent_unpackMantissa b)
  rw [flipped]
  generalize Sign.ofBitVec (unpackSign b) = s at same ⊢
  rw [toNat_packComponents] at same ⊢
  cases s with
  | positive =>
    have positive : Sign.positive.toBitVec.toNat = 0 := rfl
    have negative : (-Sign.positive).toBitVec.toNat = 1 := rfl
    rw [← same, positive, negative, Nat.zero_mul, Nat.one_mul, Nat.zero_add]
  | negative =>
    have negative : Sign.negative.toBitVec.toNat = 1 := rfl
    rw [← same, negative] at h
    exact absurd h (Nat.not_lt.2 (Nat.le_add_right _ _))

theorem toBits_neg {b : Nat} (h : b < infinityBits) :
    (-(Float.ofBits (UInt64.ofNat b))).toBits.toNat = 2 ^ 63 + b := by
  have bits := toBits_ofBits h
  generalize Float.ofBits (UInt64.ofNat b) = x at bits
  rw [← UInt64.toNat_toBitVec] at bits
  have neg : (-x).toBits.toBitVec = UnpackedFloat.pack Format.binary64
      (UnpackedFloat.unpack Format.binary64 x.toBits.toBitVec).neg := rfl
  -- of all patterns only those of a NaN are not packed again as they were
  have valid : Format.binary64.Valid (flipped x.toBits.toBitVec) := by
    constructor
    intro full
    rw [flipped, unpackExponent_packComponents] at full
    exact absurd full (unpackExponent_ne (bits ▸ h))
  rw [← unpack_flipped, pack_unpack_of_valid valid] at neg
  have small : b < 2 ^ 63 := Nat.lt_trans h (by decide)
  rw [← UInt64.toNat_toBitVec, neg, toNat_flipped (bits ▸ small), bits]

end

theorem Parts.ofBits_cases {bits mantissa : Nat} {negative : Bool} {exponent : Int}
    (h : ofBits bits = .finite negative mantissa exponent) :
    negative = decide (2 ^ 63 ≤ bits) ∧
      ((mantissa < 2 ^ 52 ∧ exponent = -1074 ∧ bits % 2 ^ 63 = mantissa) ∨
        ∃ field : Nat, 2 ^ 52 ≤ mantissa ∧ mantissa < 2 ^ 53 ∧ exponent = field - 1074 ∧
          bits % 2 ^ 63 = field * 2 ^ 52 + mantissa ∧ bits % 2 ^ 63 < infinityBits) := by
  simp only [ofBits, Nat.pow_eq] at h
  split at h
  · split at h <;> cases h
  · split at h
    · cases h
      exact ⟨rfl, .inl ⟨by omega, rfl, by omega⟩⟩
    · cases h
      refine ⟨rfl, .inr ⟨bits / 2 ^ 52 % 2 ^ 11 - 1, by omega, by omega, by omega, by omega, ?_⟩⟩
      simp only [infinityBits, Nat.pow_eq]
      omega

theorem natBits_floorScaled {field mantissa : Nat} (hlow : 2 ^ 52 ≤ mantissa)
    (hhigh : mantissa < 2 ^ 53) (h : field * 2 ^ 52 + mantissa < infinityBits)
    (whole : isWholeScaled mantissa ((field : Int) - 1074)) :
    natBits (floorScaled mantissa ((field : Int) - 1074)) = field * 2 ^ 52 + mantissa := by
  by_cases hf : 1074 ≤ field
  · obtain ⟨k, rfl⟩ : ∃ k, field = k + 1074 := ⟨field - 1074, by omega⟩
    have exponent : ((k + 1074 : Nat) : Int) - 1074 = Int.ofNat k := by simp
    rw [exponent, floorScaled, Nat.pow_eq, natBits_scaled hlow hhigh,
      Nat.min_eq_left (Nat.le_of_lt h)]
  · obtain ⟨k, hk⟩ : ∃ k, field + (k + 1) = 1074 := ⟨1074 - field - 1, by omega⟩
    have exponent : (field : Int) - 1074 = Int.negSucc k := by omega
    -- the number has no fraction, so the mantissa ends with as many zeros as are shifted out
    rw [exponent] at whole ⊢
    rw [isWholeScaled, Nat.pow_eq, beq_iff_eq] at whole
    obtain ⟨n, rfl⟩ : ∃ n, mantissa = n * 2 ^ (k + 1) :=
      ⟨_, (Nat.div_mul_cancel (Nat.dvd_of_mod_eq_zero whole)).symm⟩
    have nonzero : n ≠ 0 := by
      rintro rfl
      omega
    have length : n.log2 + (k + 1) = 52 := by
      rw [← log2_mul_two_pow nonzero, log2_mantissa hlow hhigh]
    obtain ⟨-, -, bits⟩ := natBits_short nonzero length
    have top : n.log2 + 1022 = field := by omega
    rw [floorScaled, Nat.pow_eq, Nat.mul_div_cancel _ (Nat.two_pow_pos _),
      bits, top, Nat.min_eq_left (Nat.le_of_lt h)]

theorem eq_ofNat_of_toBits {x : Float} {n : Nat} (h : natBits n < infinityBits)
    (bits : x.toBits.toNat % 2 ^ 63 = natBits n) :
    x = if 2 ^ 63 ≤ x.toBits.toNat then -(ofNat n) else ofNat n := by
  have small : x.toBits.toNat < 2 ^ 64 := x.toBits.toNat_lt
  rw [← Float.toBits_inj, ← UInt64.toNat_inj]
  split
  · rw [ofNat, toBits_neg h]
    omega
  · rw [ofNat, toBits_ofBits h]
    omega

theorem floorScaled_zero (exponent : Int) : floorScaled 0 exponent = 0 := by
  cases exponent <;> simp [floorScaled]

theorem eq_zero_of_isWholeScaled {mantissa k : Nat} (h : isWholeScaled mantissa (.negSucc k))
    (short : mantissa < 2 ^ 52) (hk : 52 ≤ k + 1) : mantissa = 0 := by
  have small : mantissa < 2 ^ (k + 1) :=
    Nat.lt_of_lt_of_le short (Nat.pow_le_pow_right (by decide) hk)
  rw [isWholeScaled, Nat.pow_eq, Nat.mod_eq_of_lt small] at h
  exact beq_iff_eq.1 h

theorem Parts.natBits_of_whole? {bits : Nat} {n : Int} (h : (ofBits bits).whole? = some n) :
    bits % 2 ^ 63 = natBits n.natAbs ∧ natBits n.natAbs < infinityBits ∧
      (ofBits (natBits n.natAbs)).whole? = some (n.natAbs : Int) ∧
      (n < 0 → 2 ^ 63 ≤ bits) ∧ (0 < n → bits < 2 ^ 63) := by
  generalize hp : ofBits bits = p at h
  unfold Parts.whole? at h
  split at h
  case h_2 => cases h
  rename_i negative mantissa exponent
  split at h
  case isFalse => cases h
  rename_i whole
  cases h
  obtain ⟨sign, ⟨short, rfl, low⟩ | ⟨field, hlow, hhigh, rfl, low, bounded⟩⟩ := ofBits_cases hp
  -- a short mantissa has the least exponent, and is whole only if it is zero
  · obtain rfl : mantissa = 0 := eq_zero_of_isWholeScaled whole short (by decide)
    have least : (ofBits 0).whole? = some 0 := by decide +kernel
    rw [floorScaled_zero]
    cases negative <;> exact ⟨low, by decide, least, nofun, nofun⟩
  · have magnitude := natBits_floorScaled hlow hhigh (low ▸ bounded) whole
    have parts := ofBits_normal hlow hhigh (low ▸ bounded)
    have value : (ofBits (field * 2 ^ 52 + mantissa)).whole? =
        some (floorScaled mantissa ((field : Int) - 1074) : Int) := by
      rw [parts, Parts.whole?, if_pos whole]
      rfl
    generalize floorScaled mantissa ((field : Int) - 1074) = k at magnitude value
    rw [sign]
    by_cases hb : 2 ^ 63 ≤ bits
    · rw [decide_eq_true hb, if_pos rfl, Int.natAbs_neg, Int.natAbs_natCast, magnitude]
      exact ⟨low, low ▸ bounded, value, fun _ => hb, fun hn => by omega⟩
    · rw [decide_eq_false hb, if_neg Bool.false_ne_true, Int.natAbs_natCast, magnitude]
      exact ⟨low, low ▸ bounded, value, fun hn => by omega, fun _ => by omega⟩

theorem beq_of_whole? {x : Float} {n : Int} (h : whole? x = some n) :
    natBits n.natAbs < infinityBits ∧ whole? (ofNat n.natAbs) = some (n.natAbs : Int) ∧
      x == if n < 0 then -(ofNat n.natAbs) else ofNat n.natAbs := by
  obtain ⟨bits, bounded, whole, negative, positive⟩ := Parts.natBits_of_whole? h
  refine ⟨bounded, by rw [whole?, parts_ofNat bounded, whole], ?_⟩
  have finite : x ≠ Float.nan := by
    have nan : whole? Float.nan = none := by decide +kernel
    rintro rfl
    cases nan.symm.trans h
  have same := eq_ofNat_of_toBits bounded bits
  rcases Int.lt_trichotomy n 0 with hn | rfl | hn
  · rw [if_pos (negative hn)] at same
    rw [if_pos hn, ← same]
    exact Float.beq_self_iff.2 finite
  -- an integer does not tell which of the two zeros it is
  · have zeros : (-(ofNat 0) == ofNat 0) = true := by decide +kernel
    rw [same, if_neg (Int.lt_irrefl 0)]
    split
    · exact zeros
    · exact (by decide +kernel : (ofNat 0 == ofNat 0) = true)
  · rw [if_neg (Nat.not_le.2 (positive hn))] at same
    rw [if_neg (Int.not_lt.2 (Int.le_of_lt hn)), ← same]
    exact Float.beq_self_iff.2 finite

end Number

end ScopedScript
