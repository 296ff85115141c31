import AnswerCheck.Proofs.Decimal.FixedPlaces
import AnswerCheck.Proofs.Decimal.Halfway
import AnswerCheck.Proofs.Decimal.ZeroSigns

/-! # The number that is shown

The text that shows a finite number is read as a rational number again, without regard to how it was
written. That number is a rounded value of the one that is shown: greater numbers are not shown by
lesser ones, across both kinds of numerals, and a number has one text.
-/

set_option autoImplicit false

namespace AnswerCheck.Decimal

open Binary64 Text

variable {text : List Char} {d : Decimal} {q : ℚ}

/-! ## Reading a text -/

/-- The number that a whole text denotes: a numeral with a sign or none, read without rounding. -/
def exactNumber? (s : List Char) : Option ℚ :=
  let (negative, unsigned) := sign s
  match unsigned? unsigned with
  | some (d, []) => some (if negative then -d.value else d.value)
  | _ => none

theorem unsigned?_numeral (h : Numeral text d) : unsigned? text = some (d, []) := by
  have hread := unsigned?_append h (stops_nil continuesNumeral)
  rwa [List.append_nil] at hread

theorem exactNumber?_numeral (h : Numeral text d) : exactNumber? text = some d.value := by
  have hsign : sign text = (false, text) := by
    obtain ⟨c, rest, rfl, hc | rfl⟩ := h.head
    · exact sign_cons_digit hc
    · rfl
  simp only [exactNumber?, hsign, unsigned?_numeral h]
  rfl

theorem exactNumber?_minus (h : Numeral text d) : exactNumber? ('-' :: text) = some (-d.value) := by
  have hsign : sign ('-' :: text) = (true, text) := rfl
  simp only [exactNumber?, hsign, unsigned?_numeral h]
  rfl

/-- The texts of the kind are numerals, and denote what they are said to. -/
def ReadsExactly (numeral : List Char → ℚ → Prop) : Prop :=
  ∀ ⦃text q⦄, numeral text q → ∃ d, Numeral text d ∧ d.value = q

theorem ReadsExactly.exactNumber?_signed {numeral : List Char → ℚ → Prop} (hreads : ReadsExactly numeral)
    (h : Signed numeral text q) : exactNumber? text = some q := by
  cases h with
  | plain h =>
    obtain ⟨d, hd, rfl⟩ := hreads h
    exact exactNumber?_numeral hd
  | minus h hne =>
    obtain ⟨d, hd, rfl⟩ := hreads h
    exact exactNumber?_minus hd

theorem PointNumeral.exists_numeral {kind : List Char → Prop} (h : PointNumeral kind text q)
    {exponent : List Char} {power : Int} (hpower : Power exponent power) :
    ∃ d, Numeral (text ++ exponent) d ∧ d.value = q * 10 ^ power := by
  obtain ⟨hwhole, hfraction, -⟩ := h
  rename_i whole fraction
  have hpoint : Fraction (pointed fraction) fraction := by
    cases fraction with
    | nil => exact .none
    | cons c ds => exact .point hfraction
  refine ⟨_, .mk hwhole.isDigits hpoint hpower (by simp [hwhole.ne_nil]), ?_⟩
  rw [value, ofParts, pointValue_eq_div, zpow_sub₀ (by norm_num), zpow_natCast]
  ring

theorem readsExactly_pointNumeral (kind : List Char → Prop) : ReadsExactly (PointNumeral kind) := by
  intro text q h
  obtain ⟨d, hd, hvalue⟩ := h.exists_numeral .none
  rw [List.append_nil] at hd
  exact ⟨d, hd, by rw [hvalue, zpow_zero, mul_one]⟩

theorem power_of_signed {exponent : List Char} {e : Int} (h : Signed WholeNumeral exponent e) :
    Power ('E' :: exponent) e := by
  cases h with
  | plain h =>
    obtain ⟨hds⟩ := h
    exact .plain (Or.inr rfl) hds.isDigits hds.ne_nil
  | minus h hne =>
    obtain ⟨hds⟩ := h
    exact .minus (Or.inr rfl) hds.isDigits hds.ne_nil

theorem readsExactly_adaptiveNumeral : ReadsExactly AdaptiveNumeral := by
  intro text q h
  cases h with
  | positional h _ _ => exact readsExactly_pointNumeral _ h
  | scientific hfirst _ hfraction hshort hexponent _ =>
    exact (shortNumeral_mantissa hfirst hfraction hshort).exists_numeral (power_of_signed hexponent)

/-! ## The magnitude that is shown -/

/-- The magnitude in the text of a decimal with a number of places, or with ten significant digits. -/
def shownMagnitude (places : Option Nat) (d : Decimal) : ℚ :=
  match places with
  | some p => Tie.awayFromZero.nearest (d.value * 10 ^ min p maxPlaces) / 10 ^ min p maxPlaces
  | none =>
    let mantissa := d.significant shownDigits .toEven
    if d.coefficient = 0 then 0
    else if mantissa.lead < leastPositional ∨ (shownDigits : Int) ≤ mantissa.lead then mantissa.value
    else (d.significant shownDigits .awayFromZero).value

variable {d' : Decimal}

theorem coefficient_significant_ne (hd : d.coefficient ≠ 0) (tie : Tie) :
    (d.significant shownDigits tie).coefficient ≠ 0 :=
  (Nat.lt_of_lt_of_le (by decide) (significant_bounds hd 9 tie).1).ne'

theorem zpow_le_value_significant (hd : d.coefficient ≠ 0) (tie : Tie) :
    (10 : ℚ) ^ d.lead ≤ (d.significant shownDigits tie).value :=
  (zpow_le_value_iff (coefficient_significant_ne hd tie)).mpr (lead_significant hd tie).1

theorem value_significant_le_zpow (hd : d.coefficient ≠ 0) (tie : Tie) :
    (d.significant shownDigits tie).value ≤ (10 : ℚ) ^ (d.lead + 1) := by
  have hunits : d.inUnits (d.lead - (9 : Nat)) tie ≤ 10 ^ 10 := by
    have h := tie.nearest_mono (units_bounds hd 9).2.le
    rwa [← inUnits_eq, show (10 : ℚ) ^ (9 + 1) = ((10 ^ 10 : Nat) : ℚ) by norm_num,
      Tie.nearest_natCast] at h
  have hcast : (d.inUnits (d.lead - (9 : Nat)) tie : ℚ) ≤ 10 ^ 10 := by exact_mod_cast hunits
  calc (d.significant shownDigits tie).value
      = d.inUnits (d.lead - (9 : Nat)) tie * 10 ^ (d.lead - (9 : Nat)) := value_significant d 9 tie
    _ ≤ 10 ^ 10 * 10 ^ (d.lead - (9 : Nat)) := by gcongr
    _ = (10 : ℚ) ^ (d.lead + 1) := by
      rw [← zpow_natCast, ← zpow_add₀ (by norm_num)]
      congr 1
      push_cast
      ring

theorem value_significant_mono (hd : d.coefficient ≠ 0) (h : d.value ≤ d'.value) (tie : Tie) :
    (d.significant shownDigits tie).value ≤ (d'.significant shownDigits tie).value := by
  have hd' : d'.coefficient ≠ 0 := by
    rw [Ne, coefficient_eq_zero_iff]
    exact ((value_pos hd).trans_le h).ne'
  have hlead : d.lead ≤ d'.lead := by
    rw [← zpow_le_value_iff hd']
    exact ((zpow_le_value_iff hd).mpr le_rfl).trans h
  obtain hlt | heq := hlead.lt_or_eq
  · -- The grids differ, but a power of ten stands between the rounded numbers.
    calc (d.significant shownDigits tie).value ≤ (10 : ℚ) ^ (d.lead + 1) := value_significant_le_zpow hd tie
      _ ≤ (10 : ℚ) ^ d'.lead := by
        gcongr
        · norm_num
        · omega
      _ ≤ (d'.significant shownDigits tie).value := zpow_le_value_significant hd' tie
  · -- Both are rounded to one grid.
    change (d.significant (9 + 1) tie).value ≤ (d'.significant (9 + 1) tie).value
    rw [value_significant, value_significant, inUnits_eq, inUnits_eq, heq]
    gcongr
    exact tie.nearest_mono (by gcongr)

/-- The form does not depend on where ties go. -/
theorem lead_significant_eq (hd : d.coefficient ≠ 0) (tie tie' : Tie) :
    (d.significant shownDigits tie).lead = (d.significant shownDigits tie').lead := by
  obtain ⟨hlow, hhigh⟩ := significant_bounds hd 9 tie
  obtain ⟨hlow', hhigh'⟩ := significant_bounds hd 9 tie'
  change (d.significant (9 + 1) tie).lead = (d.significant (9 + 1) tie').lead
  rw [lead_eq hlow hhigh, lead_eq hlow' hhigh', significant_exponent hd 9 tie tie']

theorem lead_significant_mono (hd : d.coefficient ≠ 0) (hd' : d'.coefficient ≠ 0) (h : d.value ≤ d'.value)
    (tie : Tie) : (d.significant shownDigits tie).lead ≤ (d'.significant shownDigits tie).lead := by
  rw [← zpow_le_value_iff (coefficient_significant_ne hd' tie)]
  exact ((zpow_le_value_iff (coefficient_significant_ne hd tie)).mpr le_rfl).trans
    (value_significant_mono hd h tie)

theorem value_significant_lt (hd : d.coefficient ≠ 0) (hd' : d'.coefficient ≠ 0) (tie tie' : Tie)
    (h : (d.significant shownDigits .toEven).lead < (d'.significant shownDigits .toEven).lead) :
    (d.significant shownDigits tie).value < (d'.significant shownDigits tie').value := by
  rw [lead_significant_eq hd .toEven tie, lead_significant_eq hd' .toEven tie'] at h
  exact ((value_lt_zpow_iff (coefficient_significant_ne hd tie)).mpr h).trans_le
    ((zpow_le_value_iff (coefficient_significant_ne hd' tie')).mpr le_rfl)

theorem shownMagnitude_nonneg (places : Option Nat) (d : Decimal) : 0 ≤ shownMagnitude places d := by
  cases places with
  | some p =>
    simp only [shownMagnitude]
    positivity
  | none =>
    simp only [shownMagnitude]
    split_ifs
    · exact le_rfl
    · exact value_nonneg _
    · exact value_nonneg _

theorem shownMagnitude_mono (places : Option Nat) (h : d.value ≤ d'.value) :
    shownMagnitude places d ≤ shownMagnitude places d' := by
  cases places with
  | some p =>
    simp only [shownMagnitude]
    gcongr
    exact Tie.nearest_mono _ (by gcongr)
  | none =>
    by_cases hd : d.coefficient = 0
    · have hzero : shownMagnitude none d = 0 := if_pos hd
      rw [hzero]
      exact shownMagnitude_nonneg none d'
    · have hd' : d'.coefficient ≠ 0 := by
        rw [Ne, coefficient_eq_zero_iff]
        exact ((value_pos hd).trans_le h).ne'
      have hlead := lead_significant_mono hd hd' h .toEven
      -- Between numbers in different forms the first digits have different places, and ties do not matter.
      simp only [shownMagnitude, if_neg hd, if_neg hd']
      split
      · next hform =>
        split
        · exact value_significant_mono hd h .toEven
        · next hform' => exact (value_significant_lt hd hd' _ _ (by omega)).le
      · next hform =>
        split
        · next hform' => exact (value_significant_lt hd hd' _ _ (by omega)).le
        · exact value_significant_mono hd h .awayFromZero

theorem shownMagnitude_zero (places : Option Nat) (h : d.value = 0) : shownMagnitude places d = 0 := by
  cases places with
  | some p =>
    have hnearest : Tie.awayFromZero.nearest 0 = 0 := by exact_mod_cast Tie.nearest_natCast _ 0
    simp only [shownMagnitude, h, zero_mul, hnearest, Nat.cast_zero, zero_div]
  | none => exact if_pos ((coefficient_eq_zero_iff d).mpr h)

theorem shownMagnitude_none_pos (hd : d.coefficient ≠ 0) : 0 < shownMagnitude none d := by
  simp only [shownMagnitude, if_neg hd]
  split
  · exact value_pos (coefficient_significant_ne hd _)
  · exact value_pos (coefficient_significant_ne hd _)

/-! ## The number that is shown -/

variable {x y : Float}

/-- The number in the text of a finite number. -/
def shownNumber (places : Option Nat) (x : Float) : ℚ :=
  if isNegative x then -shownMagnitude places (ofFloat x) else shownMagnitude places (ofFloat x)

theorem signed_fixedNumeral (hx : x.isFinite = true) (p : Nat) :
    Signed (FixedNumeral (min p maxPlaces)) (calculatorText x (some p)).toList (shownNumber (some p) x) := by
  have hnumeral := fixedNumeral_fixedPlaces (exactPlaces_le x) (min_lt_exactPlaces p)
  rw [toList_calculatorText hx]
  exact signed_withSign hnumeral hnumeral.isZeroText_iff _

theorem signed_adaptiveNumeral (hx : x.isFinite = true) (hd : (ofFloat x).coefficient ≠ 0) :
    Signed AdaptiveNumeral (calculatorText x none).toList (shownNumber none x) := by
  have hnumeral : AdaptiveNumeral (shown x) (shownMagnitude none (ofFloat x)) := by
    rw [shown_eq hx hd]
    simp only [shownMagnitude, if_neg hd]
    split
    · next hlead =>
      obtain ⟨hlow, hhigh⟩ := significant_bounds hd 9 .toEven
      exact adaptiveNumeral_scientificText hlow hhigh hlead
    · next hlead => exact adaptiveNumeral_fixedPlaces hd (exactPlaces_le x) hlead
  rw [toList_calculatorText hx]
  exact signed_withSign hnumeral hnumeral.isZeroText_iff _

theorem eq_zero_of_coefficient (hx : x.isFinite = true) (hd : (ofFloat x).coefficient = 0) :
    x = 0 ∨ x = -0 := by
  obtain ⟨hzero, -⟩ | ⟨hm, -⟩ := fields_eq hx
  · exact eq_of_unpacked_zero hzero
  · have hvalue : (ofFloat x).value = 0 := (coefficient_eq_zero_iff _).mp hd
    rw [ofFloat, value_toDecimal] at hvalue
    have hpositive : (0 : ℚ) < (Binary.ofFloat x).mantissa * 2 ^ (Binary.ofFloat x).exponent := by positivity
    exact absurd hvalue hpositive.ne'

/-- Without a number of places a zero is shown as zero. -/
theorem calculatorText_zero (hx : x.isFinite = true) (hd : (ofFloat x).coefficient = 0) :
    calculatorText x none = "0" := by
  obtain rfl | rfl := eq_zero_of_coefficient hx hd <;> decide +kernel

theorem shownNumber_zero (places : Option Nat) (hd : (ofFloat x).coefficient = 0) :
    shownNumber places x = 0 := by
  rw [shownNumber, shownMagnitude_zero places ((coefficient_eq_zero_iff _).mp hd), neg_zero, ite_self]

theorem shownNumber_none_ne_zero (hd : (ofFloat x).coefficient ≠ 0) : shownNumber none x ≠ 0 := by
  have hpositive := shownMagnitude_none_pos hd
  rw [shownNumber]
  split
  · exact neg_ne_zero.mpr hpositive.ne'
  · exact hpositive.ne'

/-- The text of a finite number, read without rounding. -/
theorem exactNumber?_calculatorText (hx : x.isFinite = true) (places : Option Nat) :
    exactNumber? (calculatorText x places).toList = some (shownNumber places x) := by
  cases places with
  | some p => exact (readsExactly_pointNumeral _).exactNumber?_signed (signed_fixedNumeral hx p)
  | none =>
    by_cases hd : (ofFloat x).coefficient = 0
    · have hzero : Numeral ['0'] (ofParts ['0'] [] 0) := numeral_digit rfl
      rw [calculatorText_zero hx hd, shownNumber_zero none hd]
      exact (exactNumber?_numeral hzero).trans (by decide +kernel)
    · exact readsExactly_adaptiveNumeral.exactNumber?_signed (signed_adaptiveNumeral hx hd)

/-- A number is shown by one text. -/
theorem calculatorText_of_shownNumber_eq (hx : x.isFinite = true) (hy : y.isFinite = true)
    {places : Option Nat} (h : shownNumber places x = shownNumber places y) :
    calculatorText x places = calculatorText y places := by
  rw [← String.toList_inj]
  cases places with
  | some p =>
    have hshown := signed_fixedNumeral hx p
    rw [h] at hshown
    exact (isUnsigned_fixedNumeral _).signed_unique hshown (signed_fixedNumeral hy p)
  | none =>
    by_cases hd : (ofFloat x).coefficient = 0
    · by_cases hd' : (ofFloat y).coefficient = 0
      · rw [calculatorText_zero hx hd, calculatorText_zero hy hd']
      · rw [shownNumber_zero none hd] at h
        exact absurd h.symm (shownNumber_none_ne_zero hd')
    · by_cases hd' : (ofFloat y).coefficient = 0
      · rw [shownNumber_zero none hd'] at h
        exact absurd h (shownNumber_none_ne_zero hd)
      · have hshown := signed_adaptiveNumeral hx hd
        rw [h] at hshown
        exact isUnsigned_adaptiveNumeral.signed_unique hshown (signed_adaptiveNumeral hy hd')

/-- Greater numbers are not shown by lesser ones. -/
theorem shownNumber_mono (hx : x.isFinite = true) (hy : y.isFinite = true) (places : Option Nat)
    (h : toRat x ≤ toRat y) : shownNumber places x ≤ shownNumber places y := by
  have hnonneg := shownMagnitude_nonneg places (ofFloat x)
  have hnonneg' := shownMagnitude_nonneg places (ofFloat y)
  have hvalue := value_nonneg (ofFloat x)
  have hvalue' := value_nonneg (ofFloat y)
  rw [toRat_eq hx, toRat_eq hy] at h
  unfold shownNumber
  cases hsx : isNegative x with
  | true =>
    cases hsy : isNegative y with
    | true =>
      simp only [hsx, hsy, if_true] at h ⊢
      exact neg_le_neg (shownMagnitude_mono places (neg_le_neg_iff.mp h))
    | false =>
      simp only [if_true, Bool.false_eq_true, if_false]
      linarith
  | false =>
    cases hsy : isNegative y with
    | true =>
      -- A number with a minus is as great as one without only if both are zero.
      simp only [hsx, hsy, Bool.false_eq_true, if_true, if_false] at h ⊢
      rw [shownMagnitude_zero places (show (ofFloat x).value = 0 by linarith),
        shownMagnitude_zero places (show (ofFloat y).value = 0 by linarith), neg_zero]
    | false =>
      simp only [hsx, hsy, Bool.false_eq_true, if_false] at h ⊢
      exact shownMagnitude_mono places h

end AnswerCheck.Decimal
