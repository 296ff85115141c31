import AnswerCheck.Proofs.Decimal.Binary64

/-! # Rounding a positive rational number

A mantissa with its two residual bits says all that rounding has to know of a rational number. Where
the mantissa is cut off first makes no difference as long as it is fine enough, so what products and
quotients are rounded to depends on their value alone.
-/

set_option autoImplicit false

namespace AnswerCheck.Binary64

open Float.Model
open Float.Model.UnpackedFloat hiding pack unpack

/-! ## Residual bits -/

/-- The whole part of a number with its residual bits. -/
def extended (x : ℚ) : ExtendedMantissa where
  mantissa := ⌊x⌋₊
  roundBit := ⌊2 * x⌋₊ % 2 != 0
  stickyBit := decide ((⌊2 * x⌋₊ : ℚ) ≠ 2 * x)

theorem floor_eq_half (x : ℚ) : ⌊x⌋₊ = ⌊2 * x⌋₊ / 2 := by
  rw [← Nat.floor_div_ofNat, mul_div_cancel_left₀ x two_ne_zero]

/-- A number is whole exactly if its double is an even whole number. -/
theorem floor_eq_self_iff (x : ℚ) :
    (⌊x⌋₊ : ℚ) = x ↔ ⌊2 * x⌋₊ % 2 = 0 ∧ (⌊2 * x⌋₊ : ℚ) = 2 * x := by
  have hfloor := floor_eq_half x
  constructor
  · intro h
    have hdouble : ⌊2 * x⌋₊ = 2 * ⌊x⌋₊ := by
      conv_lhs => rw [← h]
      exact_mod_cast Nat.floor_natCast (R := ℚ) (2 * ⌊x⌋₊)
    refine ⟨by omega, ?_⟩
    rw [hdouble]
    push_cast
    rw [h]
  · rintro ⟨heven, htwo⟩
    have hdouble : ⌊2 * x⌋₊ = 2 * ⌊x⌋₊ := by omega
    rw [hdouble] at htwo
    push_cast at htwo
    linarith

theorem extended_half (x : ℚ) : (extended x).shiftRightOne = extended (x / 2) := by
  have hmantissa : ⌊x / 2⌋₊ = ⌊x⌋₊ / 2 := Nat.floor_div_ofNat x 2
  have htwice : 2 * (x / 2) = x := by ring
  have hsticky : (⌊2 * x⌋₊ % 2 != 0 || decide ((⌊2 * x⌋₊ : ℚ) ≠ 2 * x)) =
      decide ((⌊x⌋₊ : ℚ) ≠ x) := by
    rw [Bool.eq_iff_iff]
    simp only [Bool.or_eq_true, bne_iff_ne, decide_eq_true_eq, ne_eq, floor_eq_self_iff x]
    tauto
  simp only [extended, ExtendedMantissa.shiftRightOne, hmantissa, htwice, hsticky]

theorem extended_shiftRight (x : ℚ) (n : Nat) : extended x >>> n = extended (x / 2 ^ n) := by
  change n.repeat ExtendedMantissa.shiftRightOne (extended x) = _
  induction n with
  | zero => simp [Nat.repeat]
  | succ n ih =>
    rw [Nat.repeat, ih, extended_half, div_div, pow_succ]

theorem extended_natCast (m : Nat) :
    ExtendedMantissa.ofMantissaAndAccuracy m .exact = extended m := by
  have hdouble : ⌊2 * (m : ℚ)⌋₊ = 2 * m := by exact_mod_cast Nat.floor_natCast (R := ℚ) (2 * m)
  simp [ExtendedMantissa.ofMantissaAndAccuracy, extended, hdouble]

/-- The residual bits of a quotient with the remainder `r`. -/
theorem ofMantissaAndAccuracy_fraction (q : Nat) {r b : Nat} (hr : r < b) :
    ExtendedMantissa.ofMantissaAndAccuracy q (accuracyOfFraction r b) =
      ⟨q, 2 * r / b != 0, decide (2 * r % b ≠ 0)⟩ := by
  unfold accuracyOfFraction
  by_cases hzero : r = 0
  · simp [hzero, ExtendedMantissa.ofMantissaAndAccuracy]
  rw [if_neg hzero]
  rcases Nat.lt_trichotomy (2 * r) b with h | h | h
  · have hbit : 2 * r / b = 0 := Nat.div_eq_of_lt h
    have hmod : 2 * r % b = 2 * r := Nat.mod_eq_of_lt h
    simp [Nat.compare_eq_lt.mpr h, ExtendedMantissa.ofMantissaAndAccuracy, hbit, hmod, hzero]
  · simp [ExtendedMantissa.ofMantissaAndAccuracy, h, Nat.div_self (Nat.zero_lt_of_lt hr)]
  · have hbit : 2 * r / b = 1 := Nat.div_eq_of_lt_le (by omega) (by omega)
    have hmod : 2 * r % b = 2 * r - b := by
      rw [Nat.mod_eq_sub_mod h.le, Nat.mod_eq_of_lt (by omega)]
    have hne : 2 * r - b ≠ 0 := by omega
    simp [Nat.compare_eq_gt.mpr h, ExtendedMantissa.ofMantissaAndAccuracy, hbit, hmod, hne]

theorem natCast_div_eq_iff {a b : Nat} (hb : 0 < b) : ((a / b : Nat) : ℚ) = a / b ↔ a % b = 0 := by
  have hne : (b : ℚ) ≠ 0 := by exact_mod_cast hb.ne'
  have hsplit := Nat.div_add_mod' a b
  rw [eq_div_iff hne]
  constructor
  · intro h
    have h' : a / b * b = a := by exact_mod_cast h
    omega
  · intro h
    have h' : a / b * b = a := by omega
    exact_mod_cast h'

/-- A quotient cut off at its whole part. -/
theorem extended_div (a b : Nat) (hb : 0 < b) :
    ExtendedMantissa.ofMantissaAndAccuracy (a / b) (accuracyOfFraction (a % b) b) =
      extended ((a : ℚ) / b) := by
  have htwice : 2 * ((a : ℚ) / b) = ((2 * a : Nat) : ℚ) / b := by
    push_cast
    rw [mul_div_assoc]
  have hwhole : ⌊(a : ℚ) / b⌋₊ = a / b := Nat.floor_div_eq_div a b
  have hdouble : ⌊((2 * a : Nat) : ℚ) / b⌋₊ = 2 * a / b := Nat.floor_div_eq_div (2 * a) b
  have hsplit : 2 * a / b = 2 * (a / b) + 2 * (a % b) / b := by
    conv_lhs => rw [← Nat.div_add_mod a b]
    rw [Nat.mul_add, Nat.mul_left_comm, Nat.mul_add_div hb]
  have hbit : (2 * a / b % 2 != 0) = (2 * (a % b) / b != 0) := by
    have hr : 2 * (a % b) / b < 2 := by
      rw [Nat.div_lt_iff_lt_mul hb]
      have := Nat.mod_lt a hb
      omega
    rw [hsplit, Nat.mul_add_mod, Nat.mod_eq_of_lt hr]
  rw [ofMantissaAndAccuracy_fraction _ (Nat.mod_lt a hb), Nat.mul_mod_mod]
  simp only [extended, htwice, hwhole, hdouble, hbit, ne_eq, natCast_div_eq_iff hb]

/-! ## The last place of a number -/

/-- The exponent of the last bit that a number keeps. -/
def lastPlace (q : ℚ) : Int :=
  max (Int.log 2 q - 52) (-1074)

theorem targetExponent_eq (t : Int) : Format.binary64.targetExponent t = max (t - 53) (-1074) := rfl

theorem zpow_le_iff {q : ℚ} (hq : 0 < q) {k : Int} : (2 : ℚ) ^ k ≤ q ↔ k ≤ Int.log 2 q := by
  exact_mod_cast Int.zpow_le_iff_le_log (b := 2) Nat.one_lt_two hq

theorem lt_zpow_iff {q : ℚ} (hq : 0 < q) {k : Int} : q < (2 : ℚ) ^ k ↔ Int.log 2 q < k := by
  exact_mod_cast Int.lt_zpow_iff_log_lt (b := 2) Nat.one_lt_two hq

/-- The place of the first bit can be read off a mantissa that is cut off anywhere. -/
theorem log_eq {q : ℚ} (hq : 0 < q) {m : Nat} {e : Int} (hm : m ≠ 0) (h : ⌊q / 2 ^ e⌋₊ = m) :
    Int.log 2 q = m.log2 + e := by
  have hpow : (0 : ℚ) < 2 ^ e := zpow_pos two_pos e
  obtain ⟨hle, hlt⟩ := (Nat.floor_eq_iff (div_nonneg hq.le hpow.le)).mp h
  rw [le_div_iff₀ hpow] at hle
  rw [div_lt_iff₀ hpow] at hlt
  have hlow : ((2 ^ m.log2 : Nat) : ℚ) ≤ m := by exact_mod_cast Nat.log2_self_le hm
  have hhigh : ((m + 1 : Nat) : ℚ) ≤ (2 ^ (m.log2 + 1) : Nat) := by
    exact_mod_cast Nat.lt_log2_self
  push_cast at hlow hhigh
  refine le_antisymm ?_ ?_
  · rw [← Int.lt_add_one_iff, ← lt_zpow_iff hq]
    calc q < (m + 1) * 2 ^ e := hlt
      _ ≤ 2 ^ (m.log2 + 1) * 2 ^ e := by gcongr
      _ = 2 ^ ((m.log2 : Int) + e + 1) := by
        rw [← zpow_natCast, ← zpow_add₀ two_ne_zero]
        congr 1
        push_cast
        ring
  · rw [← zpow_le_iff hq]
    calc (2 : ℚ) ^ ((m.log2 : Int) + e) = 2 ^ m.log2 * 2 ^ e := by
          rw [zpow_add₀ two_ne_zero, zpow_natCast]
      _ ≤ m * 2 ^ e := by gcongr
      _ ≤ q := hle

/-! ## Rounding -/

/-- A mantissa that fits the format is not shifted. -/
theorem shiftToTargetExponent_exact {m : Nat} {e : Int} (hlog : m.log2 ≤ 52) (he : -1074 ≤ e) :
    shiftToTargetExponent Format.binary64 m e .exact = (⟨m, false, false⟩, e) := by
  have hamount : (Format.binary64.targetExponent (totalExponent m e) - e).toNat = 0 := by
    rw [targetExponent_eq, totalExponent]
    omega
  simp only [shiftToTargetExponent, shiftToExponent, hamount]
  simp [ExtendedMantissa.ofMantissaAndAccuracy, HShiftRight.hShiftRight, Nat.repeat]

/-- A mantissa rounded to a whole number, with its exponent in the format. -/
def finish (em : ExtendedMantissa) (e : Int) : UnpackedFloat :=
  let shifted := shiftToTargetExponent Format.binary64 em.roundedMantissa e .exact
  if h : shifted.1.mantissa = 0 then .zero .positive
  else .finite .positive shifted.1.mantissa shifted.2 (Nat.pos_of_ne_zero h)

/-- The number nearest to a positive rational number; of two nearest ones, the one whose mantissa is
even. -/
def nearest (q : ℚ) : UnpackedFloat :=
  finish (extended (q / 2 ^ lastPlace q)) (lastPlace q)

/-- What is rounded depends on the number alone, if it is cut off at or below its last place. -/
theorem roundWithAccuracy_eq {q : ℚ} (hq : 0 < q) {m : Nat} {e : Int} {acc : Accuracy}
    (hm : ExtendedMantissa.ofMantissaAndAccuracy m acc = extended (q / 2 ^ e))
    (he : e ≤ lastPlace q) (hfine : m ≠ 0 ∨ e = -1074) :
    roundWithAccuracy Format.binary64 .positive m e acc = nearest q := by
  have hmantissa : ⌊q / 2 ^ e⌋₊ = m := by
    have := congrArg ExtendedMantissa.mantissa hm
    cases acc with
    | exact => exact this.symm
    | inexact o => cases o <;> exact this.symm
  have htarget : Format.binary64.targetExponent (totalExponent m e) = lastPlace q := by
    rw [targetExponent_eq, totalExponent]
    by_cases hzero : m = 0
    · obtain hne | rfl := hfine
      · exact absurd hzero hne
      · have hlog : Int.log 2 q < -1074 := by
          rw [← lt_zpow_iff hq]
          have := Nat.floor_eq_zero.mp (hmantissa.trans hzero)
          rwa [div_lt_one (zpow_pos two_pos _)] at this
        rw [hzero, lastPlace, Nat.log2_zero]
        omega
    · rw [lastPlace, log_eq hq hzero hmantissa]
      omega
  have hshift : shiftToTargetExponent Format.binary64 m e acc =
      (extended (q / 2 ^ lastPlace q), lastPlace q) := by
    simp only [shiftToTargetExponent, shiftToExponent, htarget, hm, extended_shiftRight]
    have hsum : e + ((lastPlace q - e).toNat : Int) = lastPlace q := by omega
    rw [hsum, div_div, ← zpow_natCast, ← zpow_add₀ two_ne_zero, hsum]
  unfold roundWithAccuracy
  rw [hshift]
  rfl

/-! ## Products and quotients -/

theorem mul_eq_nearest {m m' : Nat} {e e' : Int} (hm : 0 < m) (hm' : 0 < m')
    (hbits : 2 ^ 52 ≤ m * m') :
    mul Format.binary64 (.finite .positive m e hm) (.finite .positive m' e' hm') =
      nearest (m * 2 ^ e * (m' * 2 ^ e')) := by
  have hq : (0 : ℚ) < m * 2 ^ e * (m' * 2 ^ e') := by positivity
  have hscale : (m : ℚ) * 2 ^ e * (m' * 2 ^ e') / 2 ^ (e + e') = (m * m' : Nat) := by
    rw [div_eq_iff (zpow_ne_zero _ two_ne_zero), zpow_add₀ two_ne_zero]
    push_cast
    ring
  have hne : m * m' ≠ 0 := by positivity
  have hfloor : ⌊(m : ℚ) * 2 ^ e * (m' * 2 ^ e') / 2 ^ (e + e')⌋₊ = m * m' := by
    rw [hscale, Nat.floor_natCast]
  have hlog := log_eq hq hne hfloor
  have hlong : 52 ≤ (m * m').log2 := (Nat.le_log2 hne).mpr hbits
  refine roundWithAccuracy_eq hq ?_ ?_ (Or.inl hne)
  · rw [hscale]
    exact extended_natCast (m * m')
  · rw [lastPlace, hlog]
    omega

/-- The total exponents give the place of the first bit of a quotient, or the one before it. -/
theorem le_log_div {m m' : Nat} (hm : 0 < m) (hm' : 0 < m') (e e' : Int) :
    (m.log2 : Int) + e - (m'.log2 + 1 + e') ≤ Int.log 2 ((m : ℚ) * 2 ^ e / (m' * 2 ^ e')) := by
  have hlow : ((2 ^ m.log2 : Nat) : ℚ) ≤ m := by exact_mod_cast Nat.log2_self_le hm.ne'
  have hhigh : (m' : ℚ) ≤ (2 ^ (m'.log2 + 1) : Nat) := by exact_mod_cast Nat.lt_log2_self.le
  push_cast at hlow hhigh
  rw [← zpow_le_iff (by positivity)]
  calc (2 : ℚ) ^ ((m.log2 : Int) + e - (m'.log2 + 1 + e'))
      = 2 ^ m.log2 * 2 ^ e / (2 ^ (m'.log2 + 1) * 2 ^ e') := by
        rw [zpow_sub₀ two_ne_zero, zpow_add₀ two_ne_zero, zpow_add₀ two_ne_zero]
        norm_cast
    _ ≤ m * 2 ^ e / (m' * 2 ^ e') := by gcongr

theorem div_eq_nearest {m m' : Nat} {e e' : Int} (hm : 0 < m) (hm' : 0 < m') (he : -1074 ≤ e - e') :
    div Format.binary64 (.finite .positive m e hm) (.finite .positive m' e' hm') =
      nearest (m * 2 ^ e / (m' * 2 ^ e')) := by
  have hq : (0 : ℚ) < m * 2 ^ e / (m' * 2 ^ e') := by positivity
  have hfirst := le_log_div hm hm' e e'
  change roundWithAccuracy Format.binary64 .positive _ _ _ = _
  set t := min (e - e') (Format.binary64.targetExponent (totalExponent m e - totalExponent m' e'))
    with ht
  rw [targetExponent_eq, totalExponent, totalExponent] at ht
  have hscale : (m : ℚ) * 2 ^ e / (m' * 2 ^ e') / 2 ^ t = (m <<< (e - e' - t).toNat : Nat) / m' := by
    have hsum : ((e - e' - t).toNat : Int) = e - e' - t := by omega
    rw [Nat.shiftLeft_eq]
    push_cast
    rw [← zpow_natCast, hsum, zpow_sub₀ two_ne_zero, zpow_sub₀ two_ne_zero]
    field_simp
  refine roundWithAccuracy_eq hq ?_ ?_ ?_
  · rw [hscale]
    exact extended_div _ _ hm'
  · rw [lastPlace]
    omega
  · by_cases hzero : m <<< (e - e' - t).toNat / m' = 0
    · right
      have hsmall : Int.log 2 ((m : ℚ) * 2 ^ e / (m' * 2 ^ e')) < t := by
        rw [← lt_zpow_iff hq]
        have hone := Nat.floor_eq_zero.mp ((Nat.floor_div_eq_div (K := ℚ) _ _).trans hzero)
        rw [← hscale] at hone
        rwa [div_lt_one (zpow_pos two_pos _)] at hone
      omega
    · exact Or.inl hzero

end AnswerCheck.Binary64
