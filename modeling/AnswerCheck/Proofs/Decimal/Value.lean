import AnswerCheck.Decimal.ToFloat
import AnswerCheck.Proofs.Decimal.Digits
import AnswerCheck.Proofs.Decimal.Rounding

/-! # The number that a decimal denotes

The floating-point number of a decimal is the one nearest to its value, whichever of the ways to
compute it is taken. So it is the same for all decimals with that value.
-/

set_option autoImplicit false

namespace AnswerCheck.Binary64

open Float.Model
open Float.Model.UnpackedFloat hiding pack unpack

/-- The floating-point number nearest to a positive rational number. -/
def nearestFloat (q : ℚ) : Float :=
  .ofModel (Float.Model.pack (nearest q))

theorem nearestFloat_ne_nan (q : ℚ) : nearestFloat q ≠ .nan := by
  refine ne_nan_iff.mpr (isNaN_unpacked_pack _ ?_)
  rw [nearest, finish]
  split <;> rfl

/-! ## Scaled integers -/

theorem ofScientific_eq_nearest {m : Nat} {e : Int} (hm : 0 < m) (hlow : -((2 ^ 11 : Int) + m.log2) ≤ e)
    (hhigh : e ≤ 2 ^ 11) :
    UnpackedFloat.ofScientific Format.binary64 m e = nearest (m * 10 ^ e) := by
  unfold UnpackedFloat.ofScientific
  rw [dif_neg hm.ne', if_neg (by change ¬ e > 2 ^ 11; omega),
    if_neg (by change ¬ e < -((2 ^ 11 : Int) + m.log2); omega)]
  split
  · next hpos =>
    have hbits : 2 ^ 52 ≤ m <<< 53 * 10 ^ e.toNat := by
      have : 0 < 10 ^ e.toNat := by positivity
      rw [Nat.shiftLeft_eq]
      nlinarith
    refine (mul_eq_nearest _ _ hbits).trans (congrArg nearest ?_)
    have hexp : (10 : ℚ) ^ e = 10 ^ e.toNat := by rw [← zpow_natCast, Int.toNat_of_nonneg hpos]
    rw [hexp, Nat.shiftLeft_eq]
    push_cast
    change (m : ℚ) * 2 ^ 53 * 2 ^ (-53 : Int) * (10 ^ e.toNat * 2 ^ (0 : Int)) = _
    norm_num
    ring
  · next hneg =>
    refine (div_eq_nearest _ _ (by decide)).trans (congrArg nearest ?_)
    have hexp : (10 : ℚ) ^ e = (10 ^ (-e).toNat)⁻¹ := by
      rw [← zpow_natCast, Int.toNat_of_nonneg (by omega), zpow_neg, inv_inv]
    rw [hexp]
    push_cast
    simp [div_eq_mul_inv]

/-! ## Integers and powers of ten without error -/

theorem log2_shiftLeft {m : Nat} (hm : 0 < m) (hlog : m.log2 ≤ 52) : (m <<< (52 - m.log2)).log2 = 52 := by
  rw [Nat.log2_eq_iff (by rw [Nat.shiftLeft_eq]; positivity), Nat.shiftLeft_eq]
  have hlow := Nat.log2_self_le hm.ne'
  have hhigh : m < 2 ^ (m.log2 + 1) := Nat.lt_log2_self
  constructor
  · calc 2 ^ 52 = 2 ^ m.log2 * 2 ^ (52 - m.log2) := by rw [← Nat.pow_add]; congr 1; omega
      _ ≤ m * 2 ^ (52 - m.log2) := by gcongr
  · calc m * 2 ^ (52 - m.log2) < 2 ^ (m.log2 + 1) * 2 ^ (52 - m.log2) := by gcongr
      _ = 2 ^ 53 := by rw [← Nat.pow_add]; congr 1; omega

theorem shiftLeft_pos {m : Nat} (hm : 0 < m) (k : Nat) : 0 < m <<< k := by
  rw [Nat.shiftLeft_eq]
  positivity

/-- An integer of at most 53 bits is shifted until it has all of them. -/
theorem ofNat_eq_finite {m : Nat} (hm : 0 < m) (hlog : m.log2 ≤ 52) :
    UnpackedFloat.ofNat Format.binary64 m =
      .finite .positive (m <<< (52 - m.log2)) (m.log2 - 52) (shiftLeft_pos hm _) := by
  have hcompare : compare (m : Int) 0 = .gt := Int.compare_eq_gt.mpr (by omega)
  have htarget : Format.binary64.targetExponent (totalExponent m 0) = m.log2 - 52 := by
    rw [targetExponent_eq, totalExponent]
    omega
  have hamount : (0 - ((m.log2 : Int) - 52)).toNat = 52 - m.log2 := by omega
  have hexponent : 0 - ((52 - m.log2 : Nat) : Int) = m.log2 - 52 := by omega
  have hexact := shiftToTargetExponent_exact (m := m <<< (52 - m.log2)) (e := m.log2 - 52)
    (log2_shiftLeft hm hlog).le (by omega)
  unfold UnpackedFloat.ofNat UnpackedFloat.ofInt UnpackedFloat.normalize
  simp only [hcompare, UnpackedFloat.round, Int.toNat_natCast, htarget, decreaseExponent, hamount,
    hexponent]
  unfold roundWithAccuracy
  rw [hexact]
  simp only [ExtendedMantissa.roundedMantissa, ExtendedMantissa.accuracy,
    Accuracy.roundToNearestEven, hexact]
  rw [dif_neg (shiftLeft_pos hm _).ne']

theorem unpacked_natCast {m : Nat} (hm : 0 < m) (hsmall : m < 2 ^ 53) :
    ∃ n e h, unpacked m.toUInt64.toFloat = .finite .positive n e h ∧ (n : ℚ) * 2 ^ e = m ∧
      2 ^ 52 ≤ n ∧ -52 ≤ e := by
  have hlog : m.log2 ≤ 52 := by
    have := (Nat.log2_lt hm.ne').mpr hsmall
    omega
  have hlong := log2_shiftLeft hm hlog
  have hpos := shiftLeft_pos hm (52 - m.log2)
  have hnat : m.toUInt64.toNat = m := by
    rw [Nat.toUInt64_eq, UInt64.toNat_ofNat']
    omega
  have hround := ofNat_eq_finite hm hlog
  refine ⟨m <<< (52 - m.log2), m.log2 - 52, hpos, ?_, ?_, ?_, by omega⟩
  · have hcanonical : Canonical (UnpackedFloat.ofNat Format.binary64 m) := by
      rw [hround]
      exact Or.inl ⟨hlong, by omega, by omega⟩
    rw [← hnat] at hcanonical
    refine (unpacked_pack _ hcanonical).trans ?_
    rw [hnat, hround]
  · rw [Nat.shiftLeft_eq]
    push_cast
    rw [mul_assoc, ← zpow_natCast, ← zpow_add₀ two_ne_zero,
      show ((52 - m.log2 : Nat) : Int) + (m.log2 - 52) = 0 by omega, zpow_zero, mul_one]
  · exact ((Nat.log2_eq_iff hpos.ne').mp hlong).1

/-- Whether an unpacked number is ten to the power of `k`, with all bits of its mantissa. -/
def isPowerOfTen (k : Nat) : UnpackedFloat → Bool
  | .finite .positive m e _ =>
    2 ^ 52 ≤ m && -52 ≤ e && e ≤ 52 && m * 2 ^ (e + 52).toNat == 10 ^ k * 2 ^ 52
  | _ => false

theorem exists_of_isPowerOfTen {k : Nat} {f : UnpackedFloat} (h : isPowerOfTen k f = true) :
    ∃ n e h, f = .finite .positive n e h ∧ (n : ℚ) * 2 ^ e = 10 ^ k ∧ 2 ^ 52 ≤ n ∧ e ≤ 52 := by
  unfold isPowerOfTen at h
  split at h
  · next m e hm =>
    simp only [Bool.and_eq_true, decide_eq_true_eq, beq_iff_eq] at h
    obtain ⟨⟨⟨hbits, hlow⟩, hhigh⟩, hvalue⟩ := h
    refine ⟨m, e, hm, rfl, ?_, hbits, hhigh⟩
    have hcast : (m : ℚ) * 2 ^ (e + 52).toNat = 10 ^ k * 2 ^ 52 := by exact_mod_cast hvalue
    rw [← zpow_natCast, Int.toNat_of_nonneg (by omega), zpow_add₀ two_ne_zero, ← mul_assoc] at hcast
    exact mul_right_cancel₀ (pow_ne_zero 52 two_ne_zero) hcast
  · cases h

theorem isPowerOfTen_table :
    ∀ k : Fin 23, isPowerOfTen k (unpacked (Float.exactlyRepresentablePowersOfTen[k])) = true := by
  decide

/-! ## Scientific notation -/

theorem mul_eq_nearestFloat {x y : Float} {n m : Nat} {e f : Int} {hn : 0 < n} {hm : 0 < m}
    (hx : unpacked x = .finite .positive n e hn) (hy : unpacked y = .finite .positive m f hm)
    (hbits : 2 ^ 52 ≤ n * m) : x * y = nearestFloat (n * 2 ^ e * (m * 2 ^ f)) := by
  change Float.ofModel (Float.Model.pack (UnpackedFloat.mul _ (unpacked x) (unpacked y))) = _
  rw [hx, hy, mul_eq_nearest hn hm hbits, nearestFloat]

theorem div_eq_nearestFloat {x y : Float} {n m : Nat} {e f : Int} {hn : 0 < n} {hm : 0 < m}
    (hx : unpacked x = .finite .positive n e hn) (hy : unpacked y = .finite .positive m f hm)
    (hexp : -1074 ≤ e - f) : x / y = nearestFloat (n * 2 ^ e / (m * 2 ^ f)) := by
  change Float.ofModel (Float.Model.pack (UnpackedFloat.div _ (unpacked x) (unpacked y))) = _
  rw [hx, hy, div_eq_nearest hn hm hexp, nearestFloat]

/-- Both ways to convert a scaled integer give the number nearest to its value. -/
theorem ofScientific_eq {m : Nat} {e : Int} (hm : 0 < m) (hlow : -((2 ^ 11 : Int) + m.log2) ≤ e)
    (hhigh : e ≤ 2 ^ 11) :
    Float.ofScientific m (e < 0) e.natAbs = nearestFloat (m * 10 ^ e) := by
  unfold Float.ofScientific
  split
  · next hfast =>
    obtain ⟨hsmall, hk⟩ := hfast
    obtain ⟨n, e', hn, hunpacked, hvalue, hbits, hleast⟩ := unpacked_natCast hm hsmall
    obtain ⟨p, f, hp, htable, hpower, hpbits, hf⟩ :=
      exists_of_isPowerOfTen (isPowerOfTen_table ⟨e.natAbs, by omega⟩)
    simp only [decide_eq_true_eq]
    split
    · next hneg =>
      have hexp : (10 : ℚ) ^ e = (10 ^ e.natAbs)⁻¹ := by
        rw [← zpow_natCast, ← zpow_neg]
        congr 1
        omega
      refine (div_eq_nearestFloat hunpacked htable (by omega)).trans (congrArg nearestFloat ?_)
      rw [hvalue, hpower, hexp, div_eq_mul_inv]
    · next hpos =>
      have hexp : (10 : ℚ) ^ e = 10 ^ e.natAbs := by
        rw [← zpow_natCast]
        congr 1
        omega
      have hproduct : 2 ^ 52 ≤ n * p := Nat.le_trans hbits (Nat.le_mul_of_pos_right n hp)
      refine (mul_eq_nearestFloat hunpacked htable hproduct).trans (congrArg nearestFloat ?_)
      rw [hvalue, hpower, hexp]
  · have hexp : (if decide (e < 0) = true then Int.negOfNat e.natAbs else Int.ofNat e.natAbs) = e := by
      simp only [decide_eq_true_eq]
      split
      · rw [Int.negOfNat_eq]
        change -(e.natAbs : Int) = e
        omega
      · change (e.natAbs : Int) = e
        omega
    simp only [hexp]
    rw [Float.Model.ofScientific, ofScientific_eq_nearest hm hlow hhigh, nearestFloat]

end AnswerCheck.Binary64

namespace AnswerCheck.Decimal

open Binary64

def value (d : Decimal) : ℚ :=
  d.coefficient * 10 ^ d.exponent

theorem value_pos {d : Decimal} (hd : d.coefficient ≠ 0) : 0 < d.value := by
  have := Nat.pos_of_ne_zero hd
  unfold value
  positivity

/-- The exponent of the leading digit is a matter of the value. -/
theorem lead_eq_log {d : Decimal} (hd : d.coefficient ≠ 0) : d.lead = Int.log 10 d.value := by
  have hlow : ((10 ^ (digitCount d.coefficient - 1) : Nat) : ℚ) ≤ d.coefficient := by
    exact_mod_cast pow_digitCount_le hd
  have hhigh : (d.coefficient : ℚ) < (10 ^ digitCount d.coefficient : Nat) := by
    exact_mod_cast lt_pow_digitCount d.coefficient
  have hcount := digitCount_pos d.coefficient
  have hpow : (0 : ℚ) < 10 ^ d.exponent := by positivity
  push_cast at hlow hhigh
  refine le_antisymm ?_ ?_
  · rw [← Int.zpow_le_iff_le_log (by decide) (value_pos hd)]
    calc ((10 : Nat) : ℚ) ^ d.lead
        = 10 ^ (digitCount d.coefficient - 1) * 10 ^ d.exponent := by
          rw [← zpow_natCast, ← zpow_add₀ (by norm_num), lead]
          push_cast
          congr 1
          omega
      _ ≤ d.value := by
          unfold value
          gcongr
  · rw [← Int.lt_add_one_iff, ← Int.lt_zpow_iff_log_lt (by decide) (value_pos hd)]
    calc d.value < 10 ^ digitCount d.coefficient * 10 ^ d.exponent := by
          unfold value
          gcongr
      _ = ((10 : Nat) : ℚ) ^ (d.lead + 1) := by
          rw [← zpow_natCast, ← zpow_add₀ (by norm_num), lead]
          push_cast
          congr 1
          omega

theorem toFloat_eq_nearestFloat {d : Decimal} (hd : d.coefficient ≠ 0) (hlow : leastLead ≤ d.lead)
    (hhigh : d.lead ≤ greatestLead) : d.toFloat = nearestFloat d.value := by
  have hcount := digitCount_pos d.coefficient
  have hlong := @digitCount_le_log2 d.coefficient
  unfold toFloat
  rw [if_neg (by omega), if_neg (by omega)]
  simp only [lead, leastLead, greatestLead] at hlow hhigh
  exact ofScientific_eq (Nat.pos_of_ne_zero hd) (by omega) (by omega)

theorem toFloat_ne_nan (d : Decimal) : d.toFloat ≠ .nan := by
  by_cases hzero : d.coefficient = 0 ∨ d.lead < leastLead
  · rw [toFloat, if_pos hzero]
    exact ne_nan_iff.mpr rfl
  · by_cases hlarge : greatestLead < d.lead
    · rw [toFloat, if_neg hzero, if_pos hlarge]
      exact ne_nan_iff.mpr rfl
    · obtain ⟨hd, hlow⟩ := not_or.mp hzero
      rw [toFloat_eq_nearestFloat hd (by omega) (by omega)]
      exact nearestFloat_ne_nan _

theorem coefficient_eq_zero_iff (d : Decimal) : d.coefficient = 0 ↔ d.value = 0 := by
  constructor
  · intro h
    rw [value, h]
    simp
  · intro h
    by_contra hd
    exact (value_pos hd).ne' h

/-- Decimals with one value have one floating-point number. -/
theorem toFloat_congr {d d' : Decimal} (h : d.value = d'.value) : d.toFloat = d'.toFloat := by
  by_cases hd : d.coefficient = 0
  · have hd' : d'.coefficient = 0 := by
      rw [coefficient_eq_zero_iff, ← h, ← coefficient_eq_zero_iff]
      exact hd
    rw [toFloat, toFloat, if_pos (Or.inl hd), if_pos (Or.inl hd')]
  · have hd' : d'.coefficient ≠ 0 := by
      rw [Ne, coefficient_eq_zero_iff, ← h, ← coefficient_eq_zero_iff]
      exact hd
    have hlead : d.lead = d'.lead := by rw [lead_eq_log hd, lead_eq_log hd', h]
    by_cases hlow : d.lead < leastLead
    · rw [toFloat, toFloat, if_pos (Or.inr hlow), if_pos (Or.inr (hlead ▸ hlow))]
    · by_cases hhigh : greatestLead < d.lead
      · rw [toFloat, if_neg (by omega), if_pos hhigh, toFloat, if_neg (by omega),
          if_pos (hlead ▸ hhigh)]
      · rw [toFloat_eq_nearestFloat hd (by omega) (by omega),
          toFloat_eq_nearestFloat hd' (by omega) (by omega), h]

end AnswerCheck.Decimal
