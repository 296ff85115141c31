import AnswerCheck.Decimal.Layout
import AnswerCheck.Proofs.Decimal.Exact
import AnswerCheck.Proofs.Decimal.Nearest
import AnswerCheck.Proofs.Decimal.Rendering

/-! # The shortest decimal reads back

The search for the shortest decimal only ever settles for one in the rounding interval, so reading it
gives the number again. Written in full it is a numeral of the grammar.
-/

set_option autoImplicit false

namespace AnswerCheck.Decimal

open Binary64 Float.Model
open Float.Model.UnpackedFloat hiding pack unpack

/-! ## Reading a decimal in the interval -/

theorem RoundingInterval.contains_centre {b : Binary} (hb : 0 < b.mantissa) :
    (ofBinary b).Contains (b.mantissa * 2 ^ b.exponent) := by
  have hpow : (0 : ℚ) < 2 ^ (b.exponent - 2) := by positivity
  have hcentre : (b.mantissa * 2 ^ b.exponent : ℚ) =
      ((4 * b.mantissa : Nat) : ℚ) * 2 ^ (b.exponent - 2) := by
    rw [zpow_sub₀ two_ne_zero]
    push_cast
    ring
  have hbelow : (ofBinary b).below < 4 * b.mantissa := by
    simp only [ofBinary]
    split <;> omega
  have habove : 4 * b.mantissa < (ofBinary b).above := Nat.lt_add_of_pos_right (by decide)
  have hstrict : ((ofBinary b).below : ℚ) * 2 ^ (ofBinary b).exponent < b.mantissa * 2 ^ b.exponent ∧
      (b.mantissa * 2 ^ b.exponent : ℚ) < (ofBinary b).above * 2 ^ (ofBinary b).exponent := by
    rw [hcentre]
    exact ⟨mul_lt_mul_of_pos_right (by exact_mod_cast hbelow) hpow,
      mul_lt_mul_of_pos_right (by exact_mod_cast habove) hpow⟩
  rw [Contains]
  split
  · exact ⟨hstrict.1.le, hstrict.2.le⟩
  · exact hstrict

theorem leastLead_le_lead {d : Decimal} (hd : d.coefficient ≠ 0)
    (h : (1 / 2 : ℚ) * 2 ^ (-1074 : Int) ≤ d.value) : leastLead ≤ d.lead := by
  have hpositive : 0 < d.value := lt_of_lt_of_le (by positivity) h
  have hpowers : (2 : ℚ) * 2 ^ 1074 ≤ 10 ^ 330 := by
    exact_mod_cast (by decide +kernel : 2 * 2 ^ 1074 ≤ 10 ^ 330)
  rw [lead_eq_log hd, ← Int.zpow_le_iff_le_log (by decide) hpositive]
  calc ((10 : Nat) : ℚ) ^ leastLead = (10 ^ 330)⁻¹ := by
        rw [leastLead, zpow_neg]
        norm_cast
    _ ≤ (2 * 2 ^ 1074)⁻¹ := inv_anti₀ (by positivity) hpowers
    _ = 1 / 2 * 2 ^ (-1074 : Int) := by
        rw [mul_inv, one_div, zpow_neg]
        norm_cast
    _ ≤ d.value := h

theorem lead_le_greatestLead {d : Decimal} (hd : d.coefficient ≠ 0) (hpositive : 0 < d.value)
    (h : d.value < 2 ^ 53 * 2 ^ (971 : Int)) : d.lead ≤ greatestLead := by
  have hpowers : (2 : ℚ) ^ 53 * 2 ^ 971 ≤ 10 ^ 310 := by
    exact_mod_cast (by decide +kernel : 2 ^ 53 * 2 ^ 971 ≤ 10 ^ 310)
  rw [lead_eq_log hd, ← Int.lt_add_one_iff, ← Int.lt_zpow_iff_log_lt (by decide) hpositive]
  calc d.value < 2 ^ 53 * 2 ^ (971 : Int) := h
    _ ≤ 10 ^ 310 := hpowers
    _ = ((10 : Nat) : ℚ) ^ (greatestLead + 1) := by
        rw [show greatestLead + 1 = ((310 : Nat) : Int) from rfl, zpow_natCast, Nat.cast_ofNat]

/-- The rounding interval lies between half the last place and the first mantissa with another bit. -/
theorem bounds_of_contains {negative : Bool} {m : Nat} {e : Int} (hm : 0 < m) (hsmall : m < 2 ^ 53) {q : ℚ}
    (h : (RoundingInterval.ofBinary ⟨negative, m, e⟩).Contains q) :
    (1 / 2 : ℚ) * 2 ^ e ≤ q ∧ q < 2 ^ 53 * 2 ^ e := by
  have hpow : (0 : ℚ) < 2 ^ e := by positivity
  obtain ⟨y, rfl⟩ : ∃ y : ℚ, q = y * 2 ^ e := ⟨q / 2 ^ e, (div_mul_cancel₀ _ hpow.ne').symm⟩
  obtain ⟨hlow, hhigh, -, -⟩ := RoundingInterval.contains_bounds hm h
  have hone : (1 : ℚ) ≤ m := by exact_mod_cast hm
  have hm53 : (m : ℚ) + 1 ≤ 2 ^ 53 := by exact_mod_cast hsmall
  rw [mul_le_mul_iff_of_pos_right hpow, mul_lt_mul_iff_of_pos_right hpow]
  constructor <;> linarith

/-- A decimal in the rounding interval of a number is read as the number. -/
theorem toFloat_of_contains (negative : Bool) {x : Float} {m : Nat} {e : Int} {hm : 0 < m}
    (hx : unpacked x = .finite .positive m e hm) {d : Decimal}
    (h : (RoundingInterval.ofBinary ⟨negative, m, e⟩).Contains d.value) : d.toFloat = x := by
  have hcanonical : Canonical (.finite .positive m e hm) := hx ▸ canonical_unpacked x
  obtain ⟨hsmall, hleast, hgreatest⟩ := hcanonical.bounds
  obtain ⟨hhalf, hfull⟩ := bounds_of_contains hm hsmall h
  have hpositive : 0 < d.value := lt_of_lt_of_le (by positivity) hhalf
  have hd : d.coefficient ≠ 0 := by
    rw [Ne, coefficient_eq_zero_iff]
    exact hpositive.ne'
  have hlow : leastLead ≤ d.lead := by
    refine leastLead_le_lead hd (le_trans ?_ hhalf)
    gcongr
    norm_num
  have hhigh : d.lead ≤ greatestLead := by
    refine lead_le_greatestLead hd hpositive (lt_of_lt_of_le hfull ?_)
    gcongr
    norm_num
  rw [toFloat_eq_nearestFloat hd hlow hhigh, nearestFloat,
    RoundingInterval.nearest_of_contains hcanonical h, ← hx, pack_unpacked]

/-! ## The search -/

theorem value_trimZerosWithin (fuel : Nat) (d : Decimal) : (trimZerosWithin fuel d).value = d.value := by
  induction fuel generalizing d with
  | zero => rfl
  | succ fuel ih =>
    rw [trimZerosWithin]
    split
    · next hzero =>
      obtain ⟨c, hc⟩ : ∃ c, d.coefficient = 10 * c := ⟨d.coefficient / 10, by omega⟩
      rw [ih, value, value, hc, Nat.mul_div_cancel_left c (by decide), zpow_add₀ (by norm_num)]
      push_cast
      ring
    · rfl

theorem value_trimZeros (d : Decimal) : d.trimZeros.value = d.value :=
  value_trimZerosWithin _ d

theorem roundDiv_eq (num den : Nat) (tie : Tie) :
    roundDiv num den tie = num / den ∨ roundDiv num den tie = num / den + 1 := by
  simp only [roundDiv]
  split
  · exact Or.inl rfl
  · split
    · exact Or.inr rfl
    · cases tie with
      | awayFromZero => exact Or.inr rfl
      | toEven =>
        change num / den + num / den % 2 = _ ∨ num / den + num / den % 2 = _
        omega

variable {r : RoundingInterval} {tie : Tie}

/-- What is taken from a grid lies in the interval. -/
theorem RoundingInterval.contains_onGrid {k : Int} {d : Decimal} (h : r.onGrid? tie k = some d) :
    r.Contains d.value := by
  have hvalue (a : Nat) : (⟨a, k⟩ : Decimal).value = a * 10 ^ k := rfl
  simp only [onGrid?] at h
  generalize hfactors : commonFactors k r.exponent = factors at h
  split at h
  · next hlow _ =>
    obtain rfl := Option.some.inj h
    exact (r.holds_iff _ k).mp hlow
  · next _ hhigh =>
    obtain rfl := Option.some.inj h
    exact (r.holds_iff _ k).mp hhigh
  · next hlow hhigh =>
    obtain rfl := Option.some.inj h
    rw [hvalue]
    obtain hround | hround := roundDiv_eq (r.centre * factors.2) factors.1 tie
    · rw [hround]
      exact (r.holds_iff _ k).mp hlow
    · rw [hround]
      exact (r.holds_iff _ k).mp hhigh
  · cases h

theorem RoundingInterval.contains_firstGrid {lead : Int} {more n : Nat} {d : Decimal}
    (h : r.firstGrid? tie lead more n = some d) : r.Contains d.value := by
  induction more generalizing n with
  | zero => cases h
  | succ more ih =>
    rw [firstGrid?] at h
    split at h
    · next hgrid =>
      obtain rfl := Option.some.inj h
      exact contains_onGrid hgrid
    · exact ih h

/-- The shortest decimal of a finite number without a minus sign is read as the number. -/
theorem toFloat_shortest (tie : Tie) {x : Float} (hfinite : x.isFinite = true)
    (hsign : isNegative x = false) : (shortest tie x).toFloat = x := by
  have hexact := value_toDecimal (Binary.ofFloat x)
  rw [← ofFloat] at hexact
  obtain ⟨hx, hzero⟩ | ⟨hm, hx⟩ := fields_of_isFinite hfinite hsign
  · have hcoefficient : (ofFloat x).coefficient = 0 := by
      rw [coefficient_eq_zero_iff, hexact, hzero]
      simp
    have hzeros : x = 0 := by rw [← pack_unpacked x, hx]; rfl
    rw [shortest]
    simp only [hcoefficient, if_true]
    exact hzeros.symm
  · have hcoefficient : (ofFloat x).coefficient ≠ 0 := by
      rw [Ne, coefficient_eq_zero_iff, hexact]
      have : (0 : ℚ) < (Binary.ofFloat x).mantissa := by exact_mod_cast hm
      positivity
    refine toFloat_of_contains (Binary.ofFloat x).negative hx ?_
    rw [shortest]
    simp only [if_neg hcoefficient]
    rw [value_trimZeros]
    cases hgrid : (RoundingInterval.ofBinary (Binary.ofFloat x)).firstGrid? tie (ofFloat x).lead
        digitsToSeparate 1 with
    | some d => exact RoundingInterval.contains_firstGrid hgrid
    | none =>
      rw [Option.getD_none, hexact]
      exact RoundingInterval.contains_centre hm

/-! ## The text -/

/-- A decimal in positional notation is a numeral that denotes its value. -/
theorem numeral_plainText (d : Decimal) : ∃ d', Numeral d.plainText d' ∧ d'.value = d.value := by
  have hwhole (n : Nat) : Numeral (digits n) (ofParts (digits n) [] 0) := by
    have h := Numeral.mk (isDigits_digits n) .none .none (by simp [digits_ne_nil])
    rwa [List.append_nil, List.append_nil] at h
  have hvalue (n : Nat) : (ofParts (digits n) [] 0).value = n := by
    rw [ofParts, List.append_nil, valueOf_digits, value]
    simp
  rw [plainText]
  split
  · next hpos =>
    refine ⟨_, hwhole _, ?_⟩
    rw [hvalue, value, ← Int.toNat_of_nonneg hpos, zpow_natCast, Int.toNat_natCast, Nat.pow_eq]
    push_cast
    rfl
  · next hneg =>
    obtain ⟨places, hplaces, hexponent⟩ : ∃ places : Nat, 0 < places ∧ d.exponent = -places :=
      ⟨(-d.exponent).toNat, by omega, by omega⟩
    have hmod : d.coefficient % 10 ^ places < 10 ^ places := Nat.mod_lt _ (by positivity)
    have htext : fixedText d.coefficient (-d.exponent).toNat =
        digits (d.coefficient / 10 ^ places) ++
          '.' :: paddedDigits places (d.coefficient % 10 ^ places) := by
      simp only [fixedText, hexponent, neg_neg, Int.toNat_natCast, if_neg hplaces.ne', Nat.pow_eq]
    have hparts : ofParts (digits (d.coefficient / 10 ^ places))
        (paddedDigits places (d.coefficient % 10 ^ places)) 0 = d := by
      rw [ofParts, valueOf_append, length_paddedDigits hplaces hmod, valueOf_digits,
        valueOf_paddedDigits, Nat.div_add_mod, zero_sub, ← hexponent]
    have h := Numeral.mk (isDigits_digits (d.coefficient / 10 ^ places))
      (.point (isDigits_paddedDigits places (d.coefficient % 10 ^ places))) .none
      (by simp [digits_ne_nil])
    rw [List.append_nil, hparts] at h
    rw [htext]
    exact ⟨d, h, rfl⟩

/-- A finite number without a minus sign is written inside expressions as a numeral that denotes it. -/
theorem numeral_inline {x : Float} (hfinite : x.isFinite = true) (hsign : isNegative x = false) :
    ∃ d, Numeral (Layout.inline.text x).toList d ∧ d.toFloat = x := by
  obtain ⟨hnan, hinf⟩ := isFinite_iff.mp hfinite
  obtain ⟨d, hnumeral, hvalue⟩ := numeral_plainText (shortest .awayFromZero x)
  have htext : (Layout.inline.text x).toList = (shortest .awayFromZero x).plainText := by
    rw [Layout.text, if_neg (Bool.eq_false_iff.mp hnan)]
    simp [hsign, hinf, Layout.magnitude, Layout.isPositional, Layout.inline]
  rw [htext]
  exact ⟨d, hnumeral, (toFloat_congr hvalue).trans (toFloat_shortest _ hfinite hsign)⟩

end AnswerCheck.Decimal
