import AnswerCheck.Proofs.Decimal.Exact
import AnswerCheck.Proofs.Decimal.Rendering
import AnswerCheck.Proofs.Decimal.Units

/-! # Numbers with a fixed number of places

A finite number is shown with a number of places as the one numeral that has so many and denotes the
exact value rounded to them, halves away from zero.
-/

set_option autoImplicit false

namespace AnswerCheck.Decimal

open Binary64

/-! ## The value shown -/

/-- A rational number rounded to so many places, halves away from zero. -/
def toPlaces (places : Nat) (q : ℚ) : ℚ :=
  SignType.sign q * ⌊|q| * 10 ^ places + 1 / 2⌋ / 10 ^ places

theorem toPlaces_zero (places : Nat) : toPlaces places 0 = 0 := by
  simp [toPlaces]

/-- The magnitude of a number in units of the last place. -/
theorem units_eq {x : Float} (hx : x.isFinite = true) (places : Nat) :
    (Tie.awayFromZero.nearest ((ofFloat x).value * 10 ^ places) : Int) =
      ⌊|toRat x| * 10 ^ places + 1 / 2⌋ := by
  have hvalue := value_nonneg (ofFloat x)
  rw [Tie.nearest_awayFromZero_eq_floor (by positivity), abs_toRat hx]
  exact Int.natCast_floor_eq_floor (by positivity)

/-- Rounding a number rounds its magnitude. -/
theorem toPlaces_toRat {x : Float} (hx : x.isFinite = true) (places : Nat) :
    toPlaces places (toRat x) =
      let magnitude : ℚ := Tie.awayFromZero.nearest ((ofFloat x).value * 10 ^ places) / 10 ^ places
      if isNegative x then -magnitude else magnitude := by
  have hunits : (Tie.awayFromZero.nearest ((ofFloat x).value * 10 ^ places) : ℚ) =
      ⌊|toRat x| * 10 ^ places + 1 / 2⌋ := by
    exact_mod_cast units_eq hx places
  by_cases hzero : toRat x = 0
  · have hnone : ⌊|toRat x| * 10 ^ places + 1 / 2⌋ = 0 := by
      rw [hzero]
      norm_num
    rw [hunits, hnone, hzero, toPlaces_zero]
    simp
  · have hpositive : 0 < (ofFloat x).value := by
      rw [← abs_toRat hx]
      exact abs_pos.mpr hzero
    rw [toPlaces, ← hunits, toRat_eq hx]
    cases isNegative x with
    | true => simp [hpositive, neg_div]
    | false => simp [hpositive]

theorem toPlaces_toRat_lt_zero_iff {x : Float} (hx : x.isFinite = true) (places : Nat) :
    toPlaces places (toRat x) < 0 ↔ x < 0 ∧ toPlaces places (toRat x) ≠ 0 := by
  have hunits : (0 : ℚ) ≤
      Tie.awayFromZero.nearest ((ofFloat x).value * 10 ^ places) / 10 ^ places := by positivity
  by_cases hzero : toRat x = 0
  · rw [hzero, toPlaces_zero]
    simp
  · rw [← isNegative_iff hx hzero, toPlaces_toRat hx]
    cases isNegative x with
    | true => simpa using Nat.pos_iff_ne_zero
    | false => simpa using hunits

/-! ## Numbers -/

/-- With a number of places, of which a hundred are honoured at most, a finite number is shown by the
only numeral of its exact value rounded to them. The numeral has a minus sign exactly if the number is
below zero and is not rounded to zero. -/
theorem fixed_places_exact {x : Float} (hx : x.isFinite = true) (requested : Nat) :
    Signed (FixedNumeral (min requested 100)) (calculatorText x (some requested)).toList
        (toPlaces (min requested 100) (toRat x)) ∧
      (∀ text, Signed (FixedNumeral (min requested 100)) text (toPlaces (min requested 100) (toRat x)) →
        text = (calculatorText x (some requested)).toList) ∧
      ('-' ∈ (calculatorText x (some requested)).toList ↔
        x < 0 ∧ toPlaces (min requested 100) (toRat x) ≠ 0) := by
  have hnumeral := fixedNumeral_fixedPlaces (exactPlaces_le x) (min_lt_exactPlaces requested)
  have hshown : Signed (FixedNumeral (min requested 100)) (calculatorText x (some requested)).toList
      (toPlaces (min requested 100) (toRat x)) := by
    rw [toList_calculatorText hx, toPlaces_toRat hx]
    exact signed_withSign hnumeral hnumeral.isZeroText_iff _
  have hunsigned := isUnsigned_fixedNumeral (min requested 100)
  refine ⟨hshown, fun text htext => hunsigned.signed_unique htext hshown, ?_⟩
  rw [minus_mem_iff_head? hshown, hunsigned.head?_signed hshown, toPlaces_toRat_lt_zero_iff hx]

/-- A tie with two places goes away from zero. -/
theorem fixed_places_exact_tie :
    (-0.375 : Float).isFinite = true ∧ toRat (-0.375) = -3 / 8 ∧ toPlaces 2 (-3 / 8) = -38 / 100 ∧
      Signed (FixedNumeral 2) "-0.38".toList (-38 / 100) := by
  have hfinite : (-0.375 : Float).isFinite = true := by decide
  have hunpacked : unpacked (-0.375) = .finite .negative (3 * 2 ^ 51) (-54) (by decide) := by rfl
  have hexact : toRat (-0.375) = -3 / 8 := by
    rw [toRat, hunpacked, ratOf]
    norm_num
  have hrounded : toPlaces 2 (-3 / 8) = -38 / 100 := by
    have hfloor : ⌊|(-3 / 8 : ℚ)| * 10 ^ 2 + 1 / 2⌋ = 38 := by
      rw [abs_of_neg (by norm_num), Int.floor_eq_iff]
      norm_num
    rw [toPlaces, hfloor, sign_neg (by norm_num)]
    norm_num
  have htext : calculatorText (-0.375) (some 2) = "-0.38" := by decide +kernel
  have h := (fixed_places_exact hfinite 2).1
  rw [htext, show min 2 100 = 2 from rfl, hexact, hrounded] at h
  exact ⟨hfinite, hexact, hrounded, h⟩

end AnswerCheck.Decimal
