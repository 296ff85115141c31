import AnswerCheck.Proofs.Decimal.Exact
import AnswerCheck.Proofs.Decimal.Rendering
import AnswerCheck.Proofs.Decimal.Units

/-! # Numbers with ten significant digits

Without a number of places a finite number is shown with ten significant digits, less the zeros at
their end. The number that the text denotes decides between the two forms of numerals, whichever way
the text was made, and has no other numeral.
-/

set_option autoImplicit false

namespace AnswerCheck.Decimal

open Binary64

variable {fraction mantissa text : List Char} {first : Char} {q : ℚ} {d : Decimal}

/-! ## The numerals -/

/-- The numerals of magnitudes: positional from a millionth up to below `10 ^ 10`; other magnitudes
have one digit before the point, which is not zero, and a power of ten. Fractions do not end in
zero. -/
inductive AdaptiveNumeral : List Char → ℚ → Prop
  | positional {text : List Char} {q : ℚ} (h : ShortNumeral text q) (hlow : (10 : ℚ) ^ (-6 : Int) ≤ q)
      (hhigh : q < (10 : ℚ) ^ (10 : Int)) : AdaptiveNumeral text q
  | scientific {first : Char} {fraction exponent : List Char} {e : Int} (hfirst : first.isDigit = true)
      (hne : first ≠ '0') (hfraction : IsDigits fraction) (hshort : IsShort fraction)
      (hexponent : Signed WholeNumeral exponent e)
      (hrange : pointValue [first] fraction * 10 ^ e < (10 : ℚ) ^ (-6 : Int) ∨
        (10 : ℚ) ^ (10 : Int) ≤ pointValue [first] fraction * 10 ^ e) :
      AdaptiveNumeral (first :: pointed fraction ++ 'E' :: exponent) (pointValue [first] fraction * 10 ^ e)

theorem isWhole_singleton (h : first.isDigit = true) : IsWhole [first] where
  isDigits := by simpa [IsDigits] using h
  ne_nil := by simp
  eq_zero := fun hzero => congrArg (fun c => [c]) (Option.some.inj hzero)

theorem mantissa_bounds (hfirst : first.isDigit = true) (hne : first ≠ '0')
    (hfraction : IsDigits fraction) :
    1 ≤ pointValue [first] fraction ∧ pointValue [first] fraction < 10 := by
  have hvalue : valueOf [first] = digitValue first := Nat.zero_add _
  have hlow : 1 ≤ digitValue first :=
    Nat.pos_of_ne_zero fun h => hne (digit_ext (d := '0') hfirst rfl h)
  have hhigh := digitValue_lt hfirst
  have hlow' := valueOf_le_pointValue [first] fraction
  have hhigh' := pointValue_lt [first] hfraction
  rw [hvalue] at hlow' hhigh'
  have hlow : (1 : ℚ) ≤ digitValue first := by exact_mod_cast hlow
  have hhigh : (digitValue first : ℚ) + 1 ≤ 10 := by exact_mod_cast hhigh
  constructor <;> linarith

/-- A numeral without a power of ten that is at least one and below ten is a mantissa. -/
theorem ShortNumeral.exists_first (h : ShortNumeral text q) (hlow : 1 ≤ q) (hhigh : q < 10) :
    ∃ first fraction, text = first :: pointed fraction ∧ q = pointValue [first] fraction ∧
      first.isDigit = true ∧ first ≠ '0' ∧ IsDigits fraction ∧ IsShort fraction := by
  obtain ⟨hwhole, hfraction, hshort⟩ := h
  rename_i whole fraction
  have hfloor := floor_pointValue whole hfraction
  have hpositive : 1 ≤ valueOf whole := by
    rw [← hfloor]
    exact Nat.le_floor (by exact_mod_cast hlow)
  have hsmall : valueOf whole < 10 := by
    rw [← hfloor]
    exact (Nat.floor_lt' (by decide)).mpr (by exact_mod_cast hhigh)
  have hne : whole ≠ ['0'] := by
    rintro rfl
    exact absurd hpositive (by decide)
  have hlength : whole.length = 1 := by
    have hpow : 10 ^ (whole.length - 1) < 10 ^ 1 := lt_of_le_of_lt (hwhole.pow_le hne) hsmall
    have := (Nat.pow_lt_pow_iff_right (by decide)).mp hpow
    have := List.length_pos_of_ne_nil hwhole.ne_nil
    omega
  obtain ⟨first, rfl⟩ := List.length_eq_one_iff.mp hlength
  exact ⟨first, fraction, rfl, rfl, hwhole.isDigits first (by simp), fun h => hne (by rw [h]),
    hfraction, hshort⟩

theorem log_mul_zpow {m : ℚ} (hlow : 1 ≤ m) (hhigh : m < 10) (e : Int) : Int.log 10 (m * 10 ^ e) = e := by
  have hpow : (0 : ℚ) < 10 ^ e := by positivity
  have hpositive : 0 < m * 10 ^ e := by positivity
  refine le_antisymm ?_ ?_
  · rw [← Int.lt_add_one_iff, ← Int.lt_zpow_iff_log_lt (by decide) hpositive]
    push_cast
    rw [zpow_add_one₀ (by norm_num), mul_comm ((10 : ℚ) ^ e)]
    gcongr
  · rw [← Int.zpow_le_iff_le_log (by decide) hpositive]
    push_cast
    exact le_mul_of_one_le_left hpow.le hlow

theorem isUnsigned_adaptiveNumeral : IsUnsigned AdaptiveNumeral where
  nonneg := by
    intro text q h
    cases h with
    | positional h _ _ => exact isUnsigned_shortNumeral.nonneg h
    | scientific _ _ _ _ _ _ => exact mul_nonneg (pointValue_nonneg _ _) (by positivity)
  head?_ne := by
    intro text q h
    cases h with
    | positional h _ _ => exact isUnsigned_shortNumeral.head?_ne h
    | scientific hfirst _ _ _ _ _ =>
      intro hhead
      obtain rfl := Option.some.inj hhead
      cases hfirst
  unique := by
    intro text text' q h h'
    cases h with
    | positional h hlow hhigh =>
      cases h' with
      | positional h' _ _ => exact isUnsigned_shortNumeral.unique h h'
      | scientific _ _ _ _ _ hrange => exact absurd hrange (not_or.mpr ⟨hlow.not_gt, hhigh.not_ge⟩)
    | scientific hfirst hne hfraction hshort hexponent hrange =>
      rename_i first fraction exponent e
      generalize hq : pointValue [first] fraction * 10 ^ e = q at h' hrange
      cases h' with
      | positional _ hlow hhigh => exact absurd hrange (not_or.mpr ⟨hlow.not_gt, hhigh.not_ge⟩)
      | scientific hfirst' hne' hfraction' hshort' hexponent' hrange' =>
        rename_i first' fraction' exponent' e'
        -- The logarithm of the number gives the power of ten, and so the mantissa.
        obtain ⟨hlow, hhigh⟩ := mantissa_bounds hfirst hne hfraction
        obtain ⟨hlow', hhigh'⟩ := mantissa_bounds hfirst' hne' hfraction'
        obtain rfl : e = e' := by
          rw [← log_mul_zpow hlow hhigh e, hq, log_mul_zpow hlow' hhigh' e']
        obtain ⟨hwhole, rfl⟩ := IsShort.ext (isWhole_singleton hfirst) (isWhole_singleton hfirst')
          hfraction hfraction' hshort hshort' (mul_right_cancel₀ (by positivity) hq)
        obtain rfl := List.singleton_inj.mp hwhole
        rw [isUnsigned_wholeNumeral.signed_unique hexponent hexponent']

/-! ## What is written -/

theorem signed_exponentText (e : Int) : Signed WholeNumeral (exponentText e) e := by
  have hdigits : WholeNumeral (digits e.natAbs) e.natAbs := by
    have h := WholeNumeral.mk (isWhole_digits e.natAbs)
    rwa [valueOf_digits] at h
  unfold exponentText
  split
  · next hneg =>
    have h := Signed.minus hdigits (by omega)
    rwa [show -(e.natAbs : Int) = e by omega] at h
  · next hpos =>
    have h := Signed.plain hdigits
    rwa [show (e.natAbs : Int) = e by omega] at h

theorem lead_eq {r : Decimal} (hlow : 10 ^ 9 ≤ r.coefficient) (hhigh : r.coefficient < 10 ^ 10) :
    r.lead = r.exponent + 9 := by
  rw [lead, digitCount_eq hlow hhigh]
  push_cast
  ring

theorem adaptiveNumeral_scientificText {r : Decimal} (hlow : 10 ^ 9 ≤ r.coefficient)
    (hhigh : r.coefficient < 10 ^ 10) (hlead : r.lead < -6 ∨ 10 ≤ r.lead) :
    AdaptiveNumeral (scientificText r) r.value := by
  have hne : r.coefficient ≠ 0 := by
    intro h
    rw [h] at hlow
    omega
  have hlow' : ((10 ^ 9 : Nat) : ℚ) ≤ r.coefficient := by exact_mod_cast hlow
  have hhigh' : (r.coefficient : ℚ) < (10 ^ 10 : Nat) := by exact_mod_cast hhigh
  push_cast at hlow' hhigh'
  have hmantissa := shortNumeral_mantissaText r.coefficient
  rw [digitCount_eq hlow hhigh, Nat.add_sub_cancel] at hmantissa
  have hvalue : r.value = r.coefficient / 10 ^ 9 * 10 ^ r.lead := by
    rw [lead_eq hlow hhigh, zpow_add₀ (by norm_num), value]
    norm_num
    ring
  obtain ⟨first, fraction, htext, hq, hfirst, hnonzero, hfraction, hshort⟩ :=
    hmantissa.exists_first (by rw [le_div_iff₀ (by norm_num)]; linarith)
      (by rw [div_lt_iff₀ (by norm_num)]; linarith)
  rw [scientificText, htext, hvalue, hq]
  refine .scientific hfirst hnonzero hfraction hshort (signed_exponentText r.lead) ?_
  rw [← hq, ← hvalue, ← not_le, zpow_le_value_iff hne, zpow_le_value_iff hne, not_le]
  exact hlead

/-- Ten digits in positional notation. They are rounded anew, so that ties go away from zero, to the
last place that the rounding of the mantissa left. -/
theorem adaptiveNumeral_fixedPlaces (hd : d.coefficient ≠ 0) (hexact : -(exactPlaces : Int) ≤ d.exponent)
    (hlead : ¬ ((d.significant shownDigits .toEven).lead < leastPositional ∨
      (shownDigits : Int) ≤ (d.significant shownDigits .toEven).lead)) :
    AdaptiveNumeral
      (stripZeros
        (d.fixedPlaces ((shownDigits : Int) - 1 - (d.significant shownDigits .toEven).lead).toNat))
      (d.significant shownDigits .awayFromZero).value := by
  obtain ⟨hlow, hhigh⟩ := significant_bounds hd 9 .toEven
  obtain ⟨hlow', hhigh'⟩ := significant_bounds hd 9 .awayFromZero
  have hplace := significant_exponent hd 9 .toEven .awayFromZero
  have hunits := inUnits_significant hd 9 .toEven .awayFromZero
  have hfirst := lead_eq hlow hhigh
  have hfirst' := lead_eq hlow' hhigh'
  have hnumeral := fixedNumeral_fixedPlaces hexact (places_lt_exactPlaces (not_or.mp hlead).1)
  have hne : (d.significant 10 .awayFromZero).coefficient ≠ 0 := by
    intro h
    rw [h] at hlow'
    omega
  simp only [shownDigits, leastPositional, not_or, not_lt, not_le] at hlead hnumeral ⊢
  generalize d.significant 10 .toEven = r at *
  generalize hrounded : d.significant 10 .awayFromZero = r' at *
  obtain ⟨places, hplaces⟩ : ∃ places : Nat, ((10 : Nat) : Int) - 1 - r.lead = places :=
    ⟨(((10 : Nat) : Int) - 1 - r.lead).toNat, by omega⟩
  have hexponent : r.exponent = -(places : Int) := by omega
  have hvalue : (Tie.awayFromZero.nearest (d.value * 10 ^ places) : ℚ) / 10 ^ places = r'.value := by
    rw [inUnits_eq, hexponent, zpow_neg, zpow_natCast, div_inv_eq_mul] at hunits
    rw [hunits, value, ← hplace, hexponent, zpow_neg, zpow_natCast, div_eq_mul_inv]
  rw [hplaces, Int.toNat_natCast] at hnumeral ⊢
  rw [hvalue] at hnumeral
  refine .positional hnumeral.stripZeros ?_ ?_
  · rw [zpow_le_value_iff hne]
    omega
  · rw [value_lt_zpow_iff hne]
    omega

/-! ## Thresholds -/

theorem toRat_large : toRat large = (10 : ℚ) ^ (10 : Int) := by
  have hunpacked : unpacked large = .finite .positive 5242880000000000 (-19) (by decide) := by rfl
  rw [toRat, hunpacked, ratOf]
  norm_num

theorem toRat_small_lt : toRat small < (10 : ℚ) ^ (-8 : Int) := by
  have hunpacked : unpacked small = .finite .positive 4835703278458517 (-82) (by decide) := by rfl
  rw [toRat, hunpacked, ratOf]
  norm_num

theorem lead_significant (hd : d.coefficient ≠ 0) (tie : Tie) :
    d.lead ≤ (d.significant shownDigits tie).lead ∧ (d.significant shownDigits tie).lead ≤ d.lead + 1 := by
  obtain ⟨hlow, hhigh⟩ := significant_bounds hd 9 tie
  have hplace : (d.significant 10 tie).exponent = d.lead - 9 ∨
      (d.significant 10 tie).exponent = d.lead - 9 + 1 := by
    rw [significant_eq hd]
    split
    · exact Or.inr rfl
    · exact Or.inl rfl
  have hfirst : (d.significant 10 tie).lead = (d.significant 10 tie).exponent + 9 := lead_eq hlow hhigh
  change d.lead ≤ (d.significant 10 tie).lead ∧ (d.significant 10 tie).lead ≤ d.lead + 1
  omega

/-- Numbers beyond the thresholds are not in the range of positional notation once they are rounded, so
the form depends on the rounded number alone. -/
theorem shown_eq {x : Float} (hx : x.isFinite = true) (hd : (ofFloat x).coefficient ≠ 0) :
    shown x =
      if ((ofFloat x).significant shownDigits .toEven).lead < leastPositional ∨
          (shownDigits : Int) ≤ ((ofFloat x).significant shownDigits .toEven).lead then
        scientificText ((ofFloat x).significant shownDigits .toEven)
      else stripZeros ((ofFloat x).fixedPlaces
        ((shownDigits : Int) - 1 - ((ofFloat x).significant shownDigits .toEven).lead).toNat) := by
  obtain ⟨hlow, hhigh⟩ := lead_significant hd .toEven
  unfold shown precisionText
  simp only [if_neg hd]
  split
  · next hbeyond =>
    simp only [Bool.and_eq_true, Bool.or_eq_true, decide_eq_true_eq] at hbeyond
    rw [if_pos]
    obtain ⟨-, hlarge | hsmall⟩ := hbeyond
    · rw [le_iff_toRat (by rfl) (isFinite_abs x ▸ hx), toRat_large, toRat_abs, abs_toRat hx,
        zpow_le_value_iff hd] at hlarge
      exact Or.inr (le_trans hlarge hlow)
    · rw [lt_iff_toRat (isFinite_abs x ▸ hx) (by rfl), toRat_abs, abs_toRat hx] at hsmall
      have hsmall := (value_lt_zpow_iff hd).mp (hsmall.trans toRat_small_lt)
      refine Or.inl ?_
      change _ < (-6 : Int)
      omega
  · rfl

/-! ## Numbers -/

theorem adaptiveNumeral_shown {x : Float} (hx : x.isFinite = true) (hd : (ofFloat x).coefficient ≠ 0) :
    ∃ tie, AdaptiveNumeral (shown x) ((ofFloat x).significant shownDigits tie).value := by
  rw [shown_eq hx hd]
  split
  · next hlead =>
    obtain ⟨hlow, hhigh⟩ := significant_bounds hd 9 .toEven
    exact ⟨.toEven, adaptiveNumeral_scientificText hlow hhigh hlead⟩
  · next hlead => exact ⟨.awayFromZero, adaptiveNumeral_fixedPlaces hd (exactPlaces_le x) hlead⟩

theorem AdaptiveNumeral.isZeroText_iff (h : AdaptiveNumeral text q) : isZeroText text = true ↔ q = 0 := by
  cases h with
  | positional h _ _ => exact h.isZeroText_iff
  | scientific hfirst hne hfraction _ _ _ =>
    have hpositive := lt_of_lt_of_le one_pos (mantissa_bounds hfirst hne hfraction).1
    refine iff_of_false ?_ (by positivity)
    rw [isZeroText, List.all_append, List.all_cons]
    simp

/-- Without a number of places a finite number other than zero is shown by the only numeral of a number
with ten significant digits at most, which differs from it by half a unit of the tenth digit at most. -/
theorem adaptive_canonical {x : Float} (hx : x.isFinite = true) (hne : toRat x ≠ 0) :
    ∃ q : ℚ, Signed AdaptiveNumeral (calculatorText x none).toList q ∧
      ((calculatorText x none).toList.head? = some '-' ↔ x < 0) ∧
      (∃ (c : Nat) (k : Int), c < 10 ^ 10 ∧ |q| = c * 10 ^ k) ∧
      (∀ e : Int, (10 : ℚ) ^ e ≤ |toRat x| → |toRat x| < (10 : ℚ) ^ (e + 1) →
        |q - toRat x| ≤ 1 / 2 * (10 : ℚ) ^ (e - 9)) ∧
      ∀ text, Signed AdaptiveNumeral text q → text = (calculatorText x none).toList := by
  have hd : (ofFloat x).coefficient ≠ 0 := by
    rw [Ne, coefficient_eq_zero_iff, ← abs_toRat hx, abs_eq_zero]
    exact hne
  obtain ⟨tie, hshown⟩ := adaptiveNumeral_shown hx hd
  obtain ⟨hlow, hhigh⟩ := significant_bounds hd 9 tie
  have hnear := abs_significant_sub_le hd 9 tie
  change AdaptiveNumeral _ ((ofFloat x).significant (9 + 1) tie).value at hshown
  generalize (ofFloat x).significant (9 + 1) tie = rounded at hshown hlow hhigh hnear
  have hpositive : 0 < rounded.value :=
    value_pos (Nat.pos_iff_ne_zero.mp (lt_of_lt_of_le (by decide) hlow))
  have htext : Signed AdaptiveNumeral (calculatorText x none).toList
      (if isNegative x then -rounded.value else rounded.value) := by
    rw [toList_calculatorText hx]
    exact signed_withSign hshown hshown.isZeroText_iff _
  refine ⟨_, htext, ?_, ⟨rounded.coefficient, rounded.exponent, hhigh, ?_⟩, fun e hfirst hnext => ?_,
    fun text h => isUnsigned_adaptiveNumeral.signed_unique h htext⟩
  · rw [isUnsigned_adaptiveNumeral.head?_signed htext, ← isNegative_iff hx hne]
    cases isNegative x with
    | true => simpa using hpositive
    | false => simpa using hpositive.le
  · have habs : |rounded.value| = rounded.coefficient * 10 ^ rounded.exponent := abs_of_pos hpositive
    split
    · rwa [abs_neg]
    · exact habs
  · rw [abs_toRat hx, zpow_le_value_iff hd] at hfirst
    rw [abs_toRat hx, value_lt_zpow_iff hd] at hnext
    obtain rfl : e = (ofFloat x).lead := by omega
    rw [toRat_eq hx]
    split
    · rw [neg_sub_neg, abs_sub_comm]
      exact hnear
    · exact hnear

/-- A number just below `10 ^ 10` is rounded up to it, and loses its places. -/
theorem adaptive_canonical_carry :
    (-9999999999.95 : Float).isFinite = true ∧ toRat (-9999999999.95) ≠ 0 ∧
      ∃ q : ℚ, Signed AdaptiveNumeral "-1E10".toList q ∧ |q - toRat (-9999999999.95)| ≤ 1 / 2 := by
  have hfinite : (-9999999999.95 : Float).isFinite = true := by decide
  have hunpacked : unpacked (-9999999999.95) = .finite .negative 5242879999973786 (-19) (by decide) := by
    rfl
  have hexact : toRat (-9999999999.95) = -(5242879999973786 * 2 ^ (-19 : Int)) := by
    rw [toRat, hunpacked, ratOf]
    norm_num
  have hne : toRat (-9999999999.95) ≠ 0 := by
    rw [hexact]
    norm_num
  have htext : calculatorText (-9999999999.95) none = "-1E10" := by decide +kernel
  obtain ⟨q, hq, -, -, hnear, -⟩ := adaptive_canonical hfinite hne
  rw [htext] at hq
  refine ⟨hfinite, hne, q, hq, ?_⟩
  have h := hnear 9 (by rw [hexact]; norm_num [abs_of_pos]) (by rw [hexact]; norm_num [abs_of_pos])
  simpa using h

end AnswerCheck.Decimal
