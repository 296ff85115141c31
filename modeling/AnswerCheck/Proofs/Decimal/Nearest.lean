import AnswerCheck.Decimal.Shortest
import AnswerCheck.Proofs.Decimal.Rounding

/-! # What rounds to a number

The rationals that round to a number are those in its rounding interval. Within the interval the last
place is that of the number, except just below a power of two, where rounding carries into the next
binade.
-/

set_option autoImplicit false

namespace AnswerCheck.Binary64

open Float.Model Decimal
open Float.Model.UnpackedFloat hiding pack unpack

/-! ## Rounding to a given mantissa -/

/-- The rounding reads off the double, cut off, whether the number is past the middle or on it. -/
theorem roundedMantissa_extended_eq (x : ℚ) :
    (extended x).roundedMantissa =
      if ⌊2 * x⌋₊ % 2 = 0 then ⌊2 * x⌋₊ / 2
      else if (⌊2 * x⌋₊ : ℚ) = 2 * x then ⌊2 * x⌋₊ / 2 + ⌊2 * x⌋₊ / 2 % 2
      else ⌊2 * x⌋₊ / 2 + 1 := by
  simp only [extended, floor_eq_half x]
  generalize ⌊2 * x⌋₊ = t
  obtain heven | hodd := Nat.mod_two_eq_zero_or_one t
  · by_cases hexact : (t : ℚ) = 2 * x <;>
      simp [heven, hexact, ExtendedMantissa.roundedMantissa, ExtendedMantissa.accuracy,
        Accuracy.roundToNearestEven]
  · rw [if_neg (by omega), hodd]
    by_cases hexact : (t : ℚ) = 2 * x
    · simp only [hexact, if_true, ne_eq, not_true_eq_false, decide_false]
      rfl
    · simp only [hexact, if_false, ne_eq, not_false_eq_true, decide_true]
      rfl

/-- A number is rounded to the nearest mantissa, and between two of them to the even one. -/
theorem roundedMantissa_extended {x : ℚ} {n : Nat} (hx : 0 ≤ x) (hlow : (n : ℚ) - 1 / 2 ≤ x)
    (hhigh : x ≤ n + 1 / 2) (htie : n % 2 = 0 ∨ (n : ℚ) - 1 / 2 < x ∧ x < n + 1 / 2) :
    (extended x).roundedMantissa = n := by
  have hle : (⌊2 * x⌋₊ : ℚ) ≤ 2 * x := Nat.floor_le (by linarith)
  have hlt : 2 * x < ⌊2 * x⌋₊ + 1 := Nat.lt_floor_add_one _
  rw [roundedMantissa_extended_eq]
  generalize ⌊2 * x⌋₊ = t at hle hlt
  -- The doubles of `n` and `x` are compared as integers.
  have hupper : 2 * n < t + 2 := by
    have : (2 * n : ℚ) < t + 2 := by linarith
    exact_mod_cast this
  have hlower : t ≤ 2 * n + 1 := by
    have : (t : ℚ) ≤ 2 * n + 1 := by linarith
    exact_mod_cast this
  split
  · omega
  · split
    · next hexact =>
      have hn : n % 2 = 0 := by
        refine htie.resolve_right fun hstrict => ?_
        have hbelow : (2 * n : ℚ) < t + 1 := by linarith
        have habove : (t : ℚ) < 2 * n + 1 := by linarith
        have hbelow : 2 * n < t + 1 := by exact_mod_cast hbelow
        have habove : t < 2 * n + 1 := by exact_mod_cast habove
        omega
      omega
    · next hexact =>
      have hstrict : (t : ℚ) < 2 * x := lt_of_le_of_ne hle hexact
      have hn : t < 2 * n + 1 := by
        have : (t : ℚ) < 2 * n + 1 := by linarith
        exact_mod_cast this
      omega

theorem finish_canonical {em : ExtendedMantissa} {m : Nat} {e : Int} {hm : 0 < m}
    (hcanonical : Canonical (.finite .positive m e hm)) (hround : em.roundedMantissa = m) :
    finish em e = .finite .positive m e hm := by
  have hlog : m.log2 ≤ 52 ∧ -1074 ≤ e := by
    obtain ⟨hlog, hlow, -⟩ | ⟨hlog, rfl⟩ := hcanonical <;> omega
  simp only [finish, hround, shiftToTargetExponent_exact hlog.1 hlog.2]
  rw [dif_neg hm.ne']

/-- A mantissa that rounds up to the next binade is the least one there. -/
theorem finish_carry {em : ExtendedMantissa} {e : Int} (he : -1074 < e)
    (hround : em.roundedMantissa = 2 ^ 53) :
    finish em (e - 1) = .finite .positive (2 ^ 52) e (by decide) := by
  have hamount : (Format.binary64.targetExponent (totalExponent (2 ^ 53) (e - 1)) - (e - 1)).toNat = 1 := by
    rw [targetExponent_eq, totalExponent, Nat.log2_two_pow]
    omega
  have hshift : shiftToTargetExponent Format.binary64 (2 ^ 53) (e - 1) .exact =
      (⟨2 ^ 52, false, false⟩, e) := by
    simp only [shiftToTargetExponent, shiftToExponent, hamount]
    refine Prod.ext rfl ?_
    change e - 1 + 1 = e
    omega
  simp only [finish, hround, hshift]
  rw [dif_neg (by decide)]

/-! ## The interval around a number -/

/-- A mantissa of as many bits as the format keeps is rounded where it stands. -/
theorem nearest_mul_zpow {x : ℚ} {e : Int} (hx : 0 < x) (hhigh : x < 2 ^ 53) (he : -1074 ≤ e)
    (hlow : (2 : ℚ) ^ 52 ≤ x ∨ e = -1074) : nearest (x * 2 ^ e) = finish (extended x) e := by
  have hpow : (0 : ℚ) < 2 ^ e := by positivity
  have hq : 0 < x * 2 ^ e := mul_pos hx hpow
  have hbits (k : Nat) : (2 : ℚ) ^ ((k : Int) + e) = 2 ^ k * 2 ^ e := by
    rw [zpow_add₀ two_ne_zero, zpow_natCast]
  have hupper : x * 2 ^ e < 2 ^ (((53 : Nat) : Int) + e) := by
    rwa [hbits, mul_lt_mul_iff_of_pos_right hpow]
  have hlower : (2 : ℚ) ^ (((52 : Nat) : Int) + e) ≤ x * 2 ^ e ∨ e = -1074 := by
    rwa [hbits, mul_le_mul_iff_of_pos_right hpow]
  rw [lt_zpow_iff hq] at hupper
  rw [zpow_le_iff hq] at hlower
  have hplace : lastPlace (x * 2 ^ e) = e := by
    rw [lastPlace]
    omega
  rw [nearest, hplace, mul_div_cancel_right₀ x hpow.ne']

/-- Just below the least number of a binade rounding carries into it. -/
theorem nearest_carry {x : ℚ} {e : Int} (he : -1074 < e) (hlow : (2 : ℚ) ^ 52 - 1 / 4 ≤ x)
    (hhigh : x < 2 ^ 52) : nearest (x * 2 ^ e) = .finite .positive (2 ^ 52) e (by decide) := by
  have hdouble : x * 2 ^ e = 2 * x * 2 ^ (e - 1) := by
    have hhalf : (2 : ℚ) ^ e = 2 * 2 ^ (e - 1) := by
      rw [← zpow_one_add₀ two_ne_zero]
      congr 1
      omega
    rw [hhalf]
    ring
  have hround : (extended (2 * x)).roundedMantissa = 2 ^ 53 := by
    refine roundedMantissa_extended (by linarith) ?_ ?_ (Or.inl rfl)
    · push_cast
      linarith
    · push_cast
      linarith
  rw [hdouble, nearest_mul_zpow (by linarith) (by linarith) (by omega) (Or.inl (by linarith))]
  exact finish_carry he hround

end AnswerCheck.Binary64

namespace AnswerCheck.Decimal

open Binary64 Float.Model
open Float.Model.UnpackedFloat hiding pack unpack

def RoundingInterval.Contains (r : RoundingInterval) (q : ℚ) : Prop :=
  if r.closed then r.below * 2 ^ r.exponent ≤ q ∧ q ≤ r.above * 2 ^ r.exponent
  else r.below * 2 ^ r.exponent < q ∧ q < r.above * 2 ^ r.exponent

theorem mul_commonFactors (a : Nat) (k q : Int) :
    ((a * (commonFactors k q).1 : Nat) : ℚ) =
        a * 10 ^ k * (10 ^ (-k).toNat * 2 ^ (-q).toNat : ℚ) ∧
      ((a * (commonFactors k q).2 : Nat) : ℚ) =
        a * 2 ^ q * (10 ^ (-k).toNat * 2 ^ (-q).toNat : ℚ) := by
  have hsplit (b : ℚ) (hb : b ≠ 0) (i : Int) : b ^ i.toNat = b ^ i * b ^ (-i).toNat := by
    rw [← zpow_natCast, ← zpow_natCast, ← zpow_add₀ hb]
    congr 1
    omega
  simp only [commonFactors, Nat.pow_eq]
  push_cast
  rw [hsplit 10 (by norm_num) k, hsplit 2 (by norm_num) q]
  constructor <;> ring

/-- The test for the interval, made between integers, is right. -/
theorem RoundingInterval.holds_iff (r : RoundingInterval) (a : Nat) (k : Int) :
    r.holds a k = true ↔ r.Contains (a * 10 ^ k) := by
  have hscale : (0 : ℚ) < 10 ^ (-k).toNat * 2 ^ (-r.exponent).toNat := by positivity
  have hle (m n : Nat) : m * (commonFactors k r.exponent).2 ≤ n * (commonFactors k r.exponent).1 ↔
      (m * 2 ^ r.exponent : ℚ) ≤ n * 10 ^ k := by
    rw [← Nat.cast_le (α := ℚ), (mul_commonFactors m k r.exponent).2,
      (mul_commonFactors n k r.exponent).1, mul_le_mul_iff_of_pos_right hscale]
  have hge (m n : Nat) : n * (commonFactors k r.exponent).1 ≤ m * (commonFactors k r.exponent).2 ↔
      (n * 10 ^ k : ℚ) ≤ m * 2 ^ r.exponent := by
    rw [← Nat.cast_le (α := ℚ), (mul_commonFactors m k r.exponent).2,
      (mul_commonFactors n k r.exponent).1, mul_le_mul_iff_of_pos_right hscale]
  have hlt (m n : Nat) := not_congr (hge m n)
  have hgt (m n : Nat) := not_congr (hle m n)
  simp only [not_le] at hlt hgt
  unfold holds Contains
  generalize commonFactors k r.exponent = factors at *
  cases hclosed : r.closed <;> simp [hle, hge, hlt, hgt]

/-- The interval in quarters of the last place of its number. -/
theorem RoundingInterval.contains_iff {negative : Bool} {m : Nat} {e : Int} (hm : 0 < m) {x : ℚ} :
    (ofBinary ⟨negative, m, e⟩).Contains (x * 2 ^ e) ↔
      let below : ℚ := 4 * m - if m = 2 ^ 52 ∧ -1074 < e then 1 else 2
      if m % 2 = 0 then below ≤ 4 * x ∧ 4 * x ≤ 4 * m + 2 else below < 4 * x ∧ 4 * x < 4 * m + 2 := by
  have hpow : (0 : ℚ) < 2 ^ (e - 2) := by positivity
  have hquarter : x * 2 ^ e = 4 * x * 2 ^ (e - 2) := by
    rw [zpow_sub₀ two_ne_zero]
    norm_num
    ring
  have hbelow : ((ofBinary ⟨negative, m, e⟩).below : ℚ) =
      4 * m - if m = 2 ^ 52 ∧ -1074 < e then 1 else 2 := by
    simp only [ofBinary, Nat.pow_eq]
    split
    · rw [Nat.cast_sub (by omega)]
      push_cast
      ring
    · rw [Nat.cast_sub (by omega)]
      push_cast
      ring
  have habove : ((ofBinary ⟨negative, m, e⟩).above : ℚ) = 4 * m + 2 := by
    simp only [ofBinary]
    push_cast
    ring
  have hexponent : (ofBinary ⟨negative, m, e⟩).exponent = e - 2 := rfl
  have hclosed : (ofBinary ⟨negative, m, e⟩).closed = decide (m % 2 = 0) := rfl
  rw [Contains, hexponent, hclosed, hquarter, hbelow, habove]
  simp only [mul_le_mul_iff_of_pos_right hpow, mul_lt_mul_iff_of_pos_right hpow, decide_eq_true_eq]

/-- The interval in units of the last place of its number. -/
theorem RoundingInterval.contains_bounds {negative : Bool} {m : Nat} {e : Int} (hm : 0 < m) {x : ℚ}
    (h : (ofBinary ⟨negative, m, e⟩).Contains (x * 2 ^ e)) :
    (m : ℚ) - 1 / 2 ≤ x ∧ x ≤ m + 1 / 2 ∧
      (m % 2 = 0 ∨ (m : ℚ) - 1 / 2 < x ∧ x < m + 1 / 2) ∧
      (m = 2 ^ 52 → -1074 < e → (m : ℚ) - 1 / 4 ≤ x) := by
  have hquarters := (contains_iff hm).mp h
  by_cases hcarry : m = 2 ^ 52 ∧ -1074 < e
  · simp only [if_pos hcarry] at hquarters
    split at hquarters
    · next heven => exact ⟨by linarith, by linarith, Or.inl heven, fun _ _ => by linarith⟩
    · exact ⟨by linarith, by linarith, Or.inr ⟨by linarith, by linarith⟩, fun _ _ => by linarith⟩
  · simp only [if_neg hcarry] at hquarters
    have hnone : m = 2 ^ 52 → -1074 < e → (m : ℚ) - 1 / 4 ≤ x := fun hm he => absurd ⟨hm, he⟩ hcarry
    split at hquarters
    · next heven => exact ⟨by linarith, by linarith, Or.inl heven, hnone⟩
    · exact ⟨by linarith, by linarith, Or.inr ⟨by linarith, by linarith⟩, hnone⟩

/-- Every rational in the interval of a number is rounded to the number. -/
theorem RoundingInterval.nearest_of_contains {negative : Bool} {m : Nat} {e : Int} {hm : 0 < m}
    (hcanonical : Canonical (.finite .positive m e hm)) {q : ℚ}
    (h : (ofBinary ⟨negative, m, e⟩).Contains q) : nearest q = .finite .positive m e hm := by
  have hpow : (0 : ℚ) < 2 ^ e := by positivity
  obtain ⟨x, rfl⟩ : ∃ x : ℚ, q = x * 2 ^ e := ⟨q / 2 ^ e, (div_mul_cancel₀ q hpow.ne').symm⟩
  obtain ⟨hlow, hhigh, htie, hbinade⟩ := contains_bounds hm h
  obtain ⟨hsmall, hleast, -⟩ := hcanonical.bounds
  have hone : (1 : ℚ) ≤ m := by exact_mod_cast hm
  have hm53 : (m : ℚ) + 1 ≤ 2 ^ 53 := by exact_mod_cast hsmall
  have hx : 0 < x := by linarith
  by_cases hsame : (2 : ℚ) ^ 52 ≤ x ∨ e = -1074
  · rw [nearest_mul_zpow hx (by linarith) hleast hsame]
    exact finish_canonical hcanonical (roundedMantissa_extended hx.le hlow hhigh htie)
  · -- A canonical number that is not below the binade of `x` is the least one of the next.
    obtain ⟨hx52, hne⟩ := not_or.mp hsame
    have hm52 : m = 2 ^ 52 := by
      obtain ⟨hlog, -⟩ | ⟨-, rfl⟩ := hcanonical
      · have hlow52 := ((Nat.log2_eq_iff hm.ne').mp hlog).1
        have : (m : ℚ) < 2 ^ 52 + 1 := by linarith
        have : m < 2 ^ 52 + 1 := by exact_mod_cast this
        omega
      · exact absurd rfl hne
    have hquarter := hbinade hm52 (by omega)
    subst hm52
    push_cast at hquarter
    exact nearest_carry (by omega) hquarter (not_le.mp hx52)

end AnswerCheck.Decimal
