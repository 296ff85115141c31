import AnswerCheck.Proofs.Decimal.Carrying
import AnswerCheck.Proofs.Decimal.Prose

/-! # What a calculator shows is a numeral

Every finite number is shown as a numeral as it stands in prose, so that it can be read back.
-/

set_option autoImplicit false

namespace AnswerCheck.Decimal

open Binary64 Text

variable {whole fraction text : List Char} {kind : List Char → Prop} {q : ℚ} {d : Decimal}

/-! ## Trailing zeros -/

theorem stripZeros_digits (h : IsDigits text) : stripZeros text = text := by
  rw [stripZeros, h.not_contains_point]
  rfl

/-- The zeros at the end of a fraction go, and the point too if nothing is left after it. -/
theorem stripZeros_point (hne : whole ≠ []) (hfraction : IsDigits fraction) :
    ∃ fraction' zeros, stripZeros (whole ++ '.' :: fraction) = whole ++ pointed fraction' ∧
      IsShort fraction' ∧ fraction = fraction' ++ zeros ∧ ∀ c ∈ zeros, c = '0' := by
  obtain ⟨fraction', zeros, htext, rfl, hzeros, hshort⟩ := dropZeros_fraction whole fraction
  refine ⟨fraction', zeros, ?_, hshort, rfl, hzeros⟩
  have hcontains : (whole ++ '.' :: (fraction' ++ zeros)).contains '.' = true := by simp
  rw [stripZeros, if_pos hcontains]
  simp only [htext]
  cases fraction' with
  | nil =>
    have hpoint : (whole ++ ['.']).getLast? = some '.' := by simp
    rw [if_pos hpoint, List.dropLast_concat, if_neg (by simpa using hne), pointed, List.append_nil]
  | cons c fraction' =>
    have hdigit : (whole ++ '.' :: c :: fraction').getLast? ≠ some '.' := by
      rw [List.getLast?_append_of_ne_nil _ (by simp), List.getLast?_cons_of_ne_nil (by simp)]
      intro hpoint
      cases hfraction '.' (List.mem_append_left zeros (List.mem_of_getLast? hpoint))
    rw [if_neg hdigit, if_neg (by simp), pointed]

/-- Without the zeros at its end a numeral denotes the same number. -/
theorem PointNumeral.stripZeros (h : PointNumeral kind text q) : ShortNumeral (stripZeros text) q := by
  obtain ⟨hwhole, hfraction, -⟩ := h
  rename_i whole fraction
  by_cases hnil : fraction = []
  · have htext : Decimal.stripZeros (whole ++ pointed fraction) = whole ++ pointed fraction := by
      rw [hnil, pointed, List.append_nil, stripZeros_digits hwhole.isDigits]
    rw [htext]
    exact .mk hwhole hfraction (hnil ▸ isShort_nil)
  · obtain ⟨fraction', zeros, htext, hshort, rfl, hzeros⟩ := stripZeros_point hwhole.ne_nil hfraction
    rw [pointed_of_ne_nil hnil, htext, pointValue_zeros hzeros]
    exact .mk hwhole (fun c hc => hfraction c (List.mem_append_left zeros hc)) hshort

/-! ## Magnitudes -/

theorem power_exponentText (e : Int) : ∃ power, Power ('E' :: exponentText e) power := by
  unfold exponentText
  split
  · exact ⟨_, Power.minus (Or.inr rfl) (isDigits_digits _) (digits_ne_nil _)⟩
  · exact ⟨_, Power.plain (Or.inr rfl) (isDigits_digits _) (digits_ne_nil _)⟩

theorem PointNumeral.plainNumeral (h : PointNumeral kind text q) {exponent : List Char} {power : Int}
    (hpower : Power exponent power) : ∃ d, PlainNumeral (text ++ exponent) d := by
  obtain ⟨hwhole, hfraction, -⟩ := h
  rename_i whole fraction
  cases fraction with
  | nil =>
    exact ⟨_, PlainNumeral.mk hwhole.isDigits hwhole.ne_nil Fraction.none (fun _ => rfl) hpower⟩
  | cons c fraction =>
    exact ⟨_, PlainNumeral.mk hwhole.isDigits hwhole.ne_nil (Fraction.point hfraction)
      (fun h => nomatch h) hpower⟩

theorem PointNumeral.plainNumeral_self (h : PointNumeral kind text q) : ∃ d, PlainNumeral text d := by
  have h := h.plainNumeral Power.none
  rwa [List.append_nil] at h

theorem shortNumeral_mantissaText (coefficient : Nat) :
    ShortNumeral (stripZeros (mantissaText coefficient))
      (coefficient / 10 ^ (digitCount coefficient - 1)) :=
  (fixedNumeral_fixedText _ _).stripZeros

theorem plainNumeral_scientificText (rounded : Decimal) :
    ∃ d, PlainNumeral (scientificText rounded) d := by
  obtain ⟨power, hpower⟩ := power_exponentText rounded.lead
  exact (shortNumeral_mantissaText rounded.coefficient).plainNumeral hpower

theorem places_lt_exactPlaces {lead : Int} (hlead : ¬ lead < leastPositional) :
    ((shownDigits : Int) - 1 - lead).toNat < exactPlaces := by
  simp only [leastPositional, shownDigits, exactPlaces] at *
  omega

theorem min_lt_exactPlaces (requested : Nat) : min requested maxPlaces < exactPlaces :=
  Nat.lt_of_le_of_lt (Nat.min_le_right _ _) (by decide)

theorem plainNumeral_shown (x : Float) : ∃ d, PlainNumeral (shown x) d := by
  unfold shown precisionText
  simp only
  split
  · exact plainNumeral_scientificText _
  · split
    · exact (fixedNumeral_fixedText _ _).stripZeros.plainNumeral_self
    · split
      · exact plainNumeral_scientificText _
      · next hlead =>
        exact (fixedNumeral_fixedPlaces (exactPlaces_le x)
          (places_lt_exactPlaces (not_or.mp hlead).1)).stripZeros.plainNumeral_self

/-! ## Numbers -/

/-- What is not finite is shown by a word. -/
theorem calculatorText_of_not_isFinite {x : Float} (hx : ¬ x.isFinite = true) (places : Option Nat) :
    calculatorText x places = "NaN" ∨ calculatorText x places = "-Infinity" ∨
      calculatorText x places = "Infinity" := by
  unfold calculatorText
  split
  · exact Or.inl rfl
  · next hnan =>
    have hinf : x.isInf = true := by
      by_contra hinf
      exact hx (isFinite_iff.mpr ⟨Bool.eq_false_iff.mpr hnan, Bool.eq_false_iff.mpr hinf⟩)
    rw [if_pos hinf]
    split
    · exact Or.inr (Or.inl rfl)
    · exact Or.inr (Or.inr rfl)

theorem proseNumeral_withSign (h : PlainNumeral text d) (negative : Bool) :
    ∃ value, ProseNumeral (withSign negative text) value := by
  unfold withSign
  split
  · exact ⟨_, ProseNumeral.minus h⟩
  · exact ⟨_, ProseNumeral.unsigned h⟩

theorem toList_calculatorText {x : Float} (hx : x.isFinite = true) (places : Option Nat) :
    (calculatorText x places).toList = withSign (isNegative x) (match places with
      | some p => (ofFloat x).fixedPlaces (min p maxPlaces)
      | none => shown x) := by
  obtain ⟨hnan, hinf⟩ := isFinite_iff.mp hx
  cases places <;>
    simp only [calculatorText, hnan, hinf, Bool.false_eq_true, if_false, String.toList_ofList]

/-- The text that shows a finite number denotes a number, which may be another one because of
rounding. -/
theorem proseNumeral_calculatorText {x : Float} (hx : x.isFinite = true) (places : Option Nat) :
    ∃ value, ProseNumeral (calculatorText x places).toList value := by
  rw [toList_calculatorText hx]
  cases places with
  | some p =>
    obtain ⟨d, hd⟩ :=
      (fixedNumeral_fixedPlaces (exactPlaces_le x) (min_lt_exactPlaces p)).plainNumeral_self
    exact proseNumeral_withSign hd _
  | none =>
    obtain ⟨d, hd⟩ := plainNumeral_shown x
    exact proseNumeral_withSign hd _

/-! ## Signs -/

/-- Only zeros, apart from a point, denote zero. -/
theorem PointNumeral.isZeroText_iff (h : PointNumeral kind text q) :
    isZeroText text = true ↔ q = 0 := by
  obtain ⟨hwhole, hfraction, -⟩ := h
  rename_i whole fraction
  have hzero {ds : List Char} (hds : IsDigits ds) (c : Char) (hc : c ∈ ds) :
      (c == '0' || c == '.') = true ↔ c = '0' := by
    have hpoint : c ≠ '.' := ne_of_kind (hds c hc) rfl
    simp [hpoint]
  have hpointed : (∀ c ∈ pointed fraction, (c == '0' || c == '.') = true) ↔
      ∀ c ∈ fraction, (c == '0' || c == '.') = true := by
    cases fraction <;> simp [pointed]
  rw [isZeroText, List.all_append, Bool.and_eq_true, List.all_eq_true, List.all_eq_true, hpointed,
    forall₂_congr (hzero hwhole.isDigits), forall₂_congr (hzero hfraction),
    ← hwhole.isDigits.valueOf_eq_zero_iff, ← hfraction.valueOf_eq_zero_iff, pointValue_eq_zero_iff]

theorem signed_withSign {numeral : List Char → ℚ → Prop} (h : numeral text q)
    (hzero : isZeroText text = true ↔ q = 0) (negative : Bool) :
    Signed numeral (withSign negative text) (if negative then -q else q) := by
  cases negative with
  | false => exact Signed.plain h
  | true =>
    by_cases hq : q = 0
    · have htext : withSign true text = text := by rw [withSign, hzero.mpr hq]; rfl
      rw [htext, if_pos rfl, hq, neg_zero, ← hq]
      exact Signed.plain h
    · have htext : withSign true text = '-' :: text := by
        rw [withSign, Bool.eq_false_iff.mpr (mt hzero.mp hq)]
        rfl
      rw [htext, if_pos rfl]
      exact Signed.minus h hq

/-- A zero is shown by zeros, so that no sign is written. -/
theorem calculatorText_of_zero {x : Float} (hfinite : x.isFinite = true)
    (hzero : (ofFloat x).coefficient = 0) (habs : (x.abs != 0) = false) (places : Option Nat) :
    calculatorText x places = String.ofList (match places with
      | some p => fixedText 0 (min p maxPlaces)
      | none => ['0']) := by
  rw [← String.toList_inj, toList_calculatorText hfinite, String.toList_ofList]
  cases places with
  | none =>
    have hshown : shown x = ['0'] := by
      simp only [shown, habs, Bool.false_and, precisionText, hzero, if_true]
      rfl
    rw [hshown]
    cases isNegative x <;> rfl
  | some p =>
    have hvalue : (ofFloat x).value = 0 := by rw [value, hzero, Nat.cast_zero, zero_mul]
    have h := fixedNumeral_fixedPlaces (exactPlaces_le x) (min_lt_exactPlaces p)
    have hnearest : Tie.awayFromZero.nearest 0 = 0 := by exact_mod_cast Tie.nearest_natCast _ 0
    have h0 := fixedNumeral_fixedText 0 (min p maxPlaces)
    rw [hvalue, zero_mul, hnearest] at h
    have htext := (isUnsigned_fixedNumeral _).unique h h0
    have hsign : isZeroText (fixedText 0 (min p maxPlaces)) = true := by
      rw [h0.isZeroText_iff, Nat.cast_zero, zero_div]
    simp only [htext, withSign, hsign, Bool.not_true, Bool.and_false]
    rfl

end AnswerCheck.Decimal
