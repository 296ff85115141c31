import AnswerCheck.Proofs.Decimal.SignificantDigits

/-! # Numbers halfway between two decimals

A number halfway between two neighbouring decimals with ten significant digits is shown by a numeral
of one of them. Positional numerals are rounded away from zero. A mantissa is rounded to the even
digit instead, so from `10 ^ 10` on every second one of these numbers is shown by its lower neighbour.
-/

set_option autoImplicit false

namespace AnswerCheck.Decimal

open Binary64 Text

/-! ## Numerals of one number -/

section Numerals

variable {α : Type} {numeral : List Char → α → Prop}

/-- No text is a numeral of two numbers. -/
def DenotesOne (numeral : List Char → α → Prop) : Prop :=
  ∀ ⦃text q q'⦄, numeral text q → numeral text q' → q = q'

theorem IsUnsigned.denotesOne_signed [AddCommGroup α] [LinearOrder α] [IsOrderedAddMonoid α]
    (hnumeral : IsUnsigned numeral) (hone : DenotesOne numeral) : DenotesOne (Signed numeral) := by
  intro text q q' h h'
  cases h with
  | plain h =>
    cases h' with
    | plain h' => exact hone h h'
    | minus h' hne => exact absurd rfl (hnumeral.head?_ne h)
  | minus h hne =>
    rename_i text a
    generalize htext : '-' :: text = signed at h'
    cases h' with
    | plain h' => exact absurd (congrArg List.head? htext.symm) (hnumeral.head?_ne h')
    | minus h' hne' =>
      obtain rfl := (List.cons.inj htext).2
      rw [hone h h']

theorem denotesOne_wholeNumeral : DenotesOne WholeNumeral := by
  rintro _ _ _ ⟨-⟩ ⟨-⟩
  rfl

theorem stops_pointed (fraction : List Char) : Stops Char.isDigit (pointed fraction) := by
  cases fraction with
  | nil => exact stops_nil _
  | cons c ds => exact stops_cons.mpr rfl

theorem pointed_inj {fraction fraction' : List Char} (h : pointed fraction = pointed fraction') :
    fraction = fraction' := by
  cases fraction <;> cases fraction' <;> simp_all [pointed]

variable {kind : List Char → Prop} {text : List Char} {q : ℚ}

/-- The digits before the point end where the first character stands that is no digit. -/
theorem denotesOne_pointNumeral : DenotesOne (PointNumeral kind) := by
  rintro _ _ q' ⟨hwhole, -, -⟩ h'
  rename_i whole fraction
  generalize htext : whole ++ pointed fraction = text at h'
  obtain ⟨hwhole', -, -⟩ := h'
  rename_i whole' fraction'
  have hsame : whole = whole' := by
    rw [← takeWhile_append hwhole.isDigits (stops_pointed fraction), htext,
      takeWhile_append hwhole'.isDigits (stops_pointed fraction')]
  subst hsame
  rw [pointed_inj (List.append_cancel_left htext)]

theorem PointNumeral.notMem (h : PointNumeral kind text q) {c : Char} (hdigit : c.isDigit = false)
    (hpoint : c ≠ '.') : c ∉ text := by
  obtain ⟨hwhole, hfraction, -⟩ := h
  have hnot {ds : List Char} (hds : IsDigits ds) (hmem : c ∈ ds) : False := by
    rw [hds c hmem] at hdigit
    cases hdigit
  intro hmem
  obtain hmem | hmem := List.mem_append.mp hmem
  · exact hnot hwhole.isDigits hmem
  · obtain hmem | hmem := mem_pointed hmem
    · exact hpoint hmem
    · exact hnot hfraction hmem

theorem shortNumeral_mantissa {first : Char} {fraction : List Char} (hfirst : first.isDigit = true)
    (hfraction : IsDigits fraction) (hshort : IsShort fraction) :
    ShortNumeral (first :: pointed fraction) (pointValue [first] fraction) :=
  .mk (isWhole_singleton hfirst) hfraction hshort

theorem denotesOne_adaptiveNumeral : DenotesOne AdaptiveNumeral := by
  have hmark : ∀ {text q}, ShortNumeral text q → 'E' ∉ text :=
    fun h => h.notMem rfl (by decide)
  intro text q q' h h'
  cases h with
  | positional h _ _ =>
    cases h' with
    | positional h' _ _ => exact denotesOne_pointNumeral h h'
    | scientific _ _ _ _ _ _ => exact absurd (by simp) (hmark h)
  | scientific hfirst hne hfraction hshort hexponent hrange =>
    rename_i first fraction exponent e
    generalize htext : first :: pointed fraction ++ 'E' :: exponent = text at h'
    cases h' with
    | positional h' _ _ => exact absurd (by simp [← htext]) (hmark h')
    | scientific hfirst' hne' hfraction' hshort' hexponent' hrange' =>
      rename_i first' fraction' exponent' e'
      have hmantissa := shortNumeral_mantissa hfirst hfraction hshort
      have hmantissa' := shortNumeral_mantissa hfirst' hfraction' hshort'
      have hpieces := congrArg (List.splitOn 'E') htext
      rw [List.splitOn_append_cons_self_of_not_mem (hmark hmantissa),
        List.splitOn_append_cons_self_of_not_mem (hmark hmantissa')] at hpieces
      have hsame := (List.cons.inj hpieces).1
      rw [hsame] at htext hmantissa
      obtain rfl := (List.cons.inj (List.append_cancel_left htext)).2
      rw [denotesOne_pointNumeral hmantissa hmantissa',
        isUnsigned_wholeNumeral.denotesOne_signed denotesOne_wholeNumeral hexponent hexponent']

end Numerals

/-- The number is shown by a numeral of this magnitude, with its own sign. -/
def Shows (x : Float) (magnitude : ℚ) : Prop :=
  Signed AdaptiveNumeral (calculatorText x none).toList (if toRat x < 0 then -magnitude else magnitude)

theorem Shows.unique {x : Float} {q q' : ℚ} (h : Shows x q) (h' : Shows x q') : q = q' := by
  have hsame := isUnsigned_adaptiveNumeral.denotesOne_signed denotesOne_adaptiveNumeral h h'
  split at hsame
  · exact neg_inj.mp hsame
  · exact hsame

/-- The magnitude of the number is halfway between two neighbours with ten significant digits, which
are `n` and `n + 1` units of `10 ^ k`. -/
structure Halfway (x : Float) (n : Nat) (k : Int) : Prop where
  low : 10 ^ 9 ≤ n
  high : n < 10 ^ 10
  abs_eq : |toRat x| = (n + 1 / 2) * 10 ^ k

/-! ## Rounding -/

variable {x : Float} {n : Nat} {k : Int} {d : Decimal}

theorem floor_add_half (n : Nat) : ⌊(n : ℚ) + 1 / 2⌋₊ = n :=
  (Nat.floor_eq_iff (by positivity)).mpr ⟨by linarith, by linarith⟩

theorem nearest_awayFromZero_half (n : Nat) : Tie.awayFromZero.nearest (n + 1 / 2) = n + 1 := by
  rw [Tie.nearest_awayFromZero, floor_add_half, if_neg (by linarith)]

theorem nearest_toEven_half (n : Nat) : Tie.toEven.nearest (n + 1 / 2) = n + n % 2 := by
  simp only [Tie.nearest, floor_add_half]
  rw [if_neg (by linarith), if_neg (by linarith)]

/-- A carry changes the digits of a rounded number, but not what they denote. -/
theorem value_significant (d : Decimal) (n : Nat) (tie : Tie) :
    (d.significant (n + 1) tie).value = d.inUnits (d.lead - n) tie * 10 ^ (d.lead - n) := by
  have hplace : d.lead - ((n + 1 : Nat) : Int) + 1 = d.lead - n := by omega
  simp only [significant, hplace, Nat.add_sub_cancel]
  split
  · next hcarry =>
    rw [hcarry, value, zpow_add_one₀ (by norm_num), Nat.pow_eq, Nat.pow_eq, pow_succ]
    push_cast
    ring
  · rfl

theorem five_pow_dvd {m n j : Nat} {e : Int} (h : (m : ℚ) * 2 ^ e = (n + 1 / 2) * (10 ^ j)⁻¹) :
    5 ^ j ∣ 2 * n + 1 := by
  obtain ⟨i, l, hexponent⟩ : ∃ i l : Nat, e + 1 + j = i - l :=
    ⟨(e + 1 + j).toNat, (-(e + 1 + j)).toNat, by omega⟩
  have htwo : (2 : ℚ) ^ e * 2 * 2 ^ j * 2 ^ l = 2 ^ i := by
    rw [← zpow_natCast, ← zpow_natCast, ← zpow_natCast, ← zpow_add_one₀ two_ne_zero,
      ← zpow_add₀ two_ne_zero, ← zpow_add₀ two_ne_zero]
    congr 1
    omega
  have hten : (10 : ℚ) ^ j = 2 ^ j * 5 ^ j := by
    rw [← mul_pow]
    norm_num
  have hproduct : (m : ℚ) * 2 ^ i * 5 ^ j = (2 * n + 1) * 2 ^ l := by
    rw [hten] at h
    rw [← htwo]
    field_simp at h
    linear_combination 2 ^ l * h
  have hdvd : 5 ^ j ∣ (2 * n + 1) * 2 ^ l := Dvd.intro_left _ (by exact_mod_cast hproduct)
  have hcoprime : Nat.Coprime (5 ^ j) (2 ^ l) := Nat.Coprime.pow _ _ (by decide)
  exact hcoprime.dvd_of_dvd_mul_right hdvd

section Halfway

variable (hx : x.isFinite = true) (h : Halfway x n k)
include hx h

theorem Halfway.value_eq : (ofFloat x).value = (n + 1 / 2) * 10 ^ k := by
  rw [← abs_toRat hx, h.abs_eq]

theorem Halfway.coefficient_ne_zero : (ofFloat x).coefficient ≠ 0 := by
  rw [Ne, coefficient_eq_zero_iff, h.value_eq hx]
  positivity

theorem Halfway.lead_eq : (ofFloat x).lead = k + 9 := by
  have hd := h.coefficient_ne_zero hx
  have hpow : (0 : ℚ) < 10 ^ k := by positivity
  have hlow : (10 : ℚ) ^ (9 : Int) ≤ n := by exact_mod_cast h.low
  have hhigh : (n : ℚ) + 1 ≤ 10 ^ (10 : Int) := by exact_mod_cast h.high
  have hleast : k + 9 ≤ (ofFloat x).lead := by
    rw [← zpow_le_value_iff hd, h.value_eq hx, add_comm, zpow_add₀ (by norm_num)]
    gcongr
    linarith
  have hgreatest : (ofFloat x).lead < k + 10 := by
    rw [← value_lt_zpow_iff hd, h.value_eq hx, add_comm k, zpow_add₀ (by norm_num)]
    gcongr
    linarith
  omega

/-- Every decimal place of a binary fraction brings a factor of five. -/
theorem Halfway.le_exponent : -14 ≤ k := by
  by_contra hlow
  obtain ⟨j, rfl⟩ : ∃ j : Nat, k = -j := ⟨(-k).toNat, by omega⟩
  have hvalue := h.value_eq hx
  rw [ofFloat, value_toDecimal, zpow_neg, zpow_natCast] at hvalue
  have hle := Nat.le_of_dvd (by omega) (five_pow_dvd hvalue)
  have hmany : 5 ^ 15 ≤ 5 ^ j := Nat.pow_le_pow_right (by decide) (by omega)
  have hhigh := h.high
  omega

theorem Halfway.value_significant (tie : Tie) :
    ((ofFloat x).significant shownDigits tie).value = tie.nearest (n + 1 / 2) * 10 ^ k := by
  have hunits : (ofFloat x).value / 10 ^ k = n + 1 / 2 := by
    rw [h.value_eq hx, mul_div_assoc, div_self (by positivity), mul_one]
  have hplace : (ofFloat x).lead - (9 : Nat) = k := by
    rw [h.lead_eq hx]
    omega
  rw [shownDigits, Decimal.value_significant, hplace, inUnits_eq, hunits]

/-! ## The neighbour that is shown -/

/-- Below `10 ^ 10` a mantissa that is rounded down stays in the range of positional notation. -/
theorem Halfway.positional_of_even (heven : n % 2 = 0) (hbelow : |toRat x| < 10 ^ 10) :
    ¬ (((ofFloat x).significant shownDigits .toEven).lead < leastPositional ∨
      (shownDigits : Int) ≤ ((ofFloat x).significant shownDigits .toEven).lead) := by
  have hd := h.coefficient_ne_zero hx
  have hpow : (0 : ℚ) < 10 ^ k := by positivity
  have hne : ((ofFloat x).significant shownDigits .toEven).coefficient ≠ 0 :=
    Nat.pos_iff_ne_zero.mp (lt_of_lt_of_le (by decide) (significant_bounds hd 9 .toEven).1)
  have hvalue := h.value_significant hx .toEven
  simp only [nearest_toEven_half, heven, Nat.add_zero] at hvalue
  have hless : ((ofFloat x).significant shownDigits .toEven).value < 10 ^ (10 : Int) := by
    calc ((ofFloat x).significant shownDigits .toEven).value = n * 10 ^ k := hvalue
      _ < (n + 1 / 2) * 10 ^ k := by gcongr; linarith
      _ = |toRat x| := h.abs_eq.symm
      _ < 10 ^ (10 : Int) := by exact_mod_cast hbelow
  have hgreatest := (value_lt_zpow_iff hne).mp hless
  have hleast := (lead_significant hd .toEven).1
  have hplaces := h.le_exponent hx
  rw [h.lead_eq hx] at hleast
  simp only [shownDigits, leastPositional] at hgreatest hleast ⊢
  omega

theorem Halfway.adaptiveNumeral_shown :
    AdaptiveNumeral (shown x)
      ((if |toRat x| < 10 ^ 10 ∨ n % 2 = 1 then (n + 1 : ℚ) else n) * 10 ^ k) := by
  have hd := h.coefficient_ne_zero hx
  rw [shown_eq hx hd]
  split
  · next hform =>
    obtain ⟨hlow, hhigh⟩ := significant_bounds hd 9 .toEven
    have hnumeral := adaptiveNumeral_scientificText hlow hhigh hform
    have hvalue := h.value_significant hx .toEven
    rw [nearest_toEven_half] at hvalue
    obtain heven | hodd := Nat.mod_two_eq_zero_or_one n
    · have hlarge : ¬ |toRat x| < 10 ^ 10 :=
        fun hbelow => h.positional_of_even hx heven hbelow hform
      simp only [heven, Nat.add_zero] at hvalue
      rw [if_neg (by simp [hlarge, heven]), ← hvalue]
      exact hnumeral
    · simp only [hodd, Nat.cast_add, Nat.cast_one] at hvalue
      rw [if_pos (Or.inr hodd), ← hvalue]
      exact hnumeral
  · next hform =>
    have hnumeral := adaptiveNumeral_fixedPlaces hd (exactPlaces_le x) hform
    have hvalue := h.value_significant hx .awayFromZero
    rw [nearest_awayFromZero_half, Nat.cast_add, Nat.cast_one] at hvalue
    have hbelow : |toRat x| < (10 : ℚ) ^ (10 : Int) := by
      rw [abs_toRat hx, value_lt_zpow_iff hd]
      exact lt_of_le_of_lt (lead_significant hd .toEven).1 (not_le.mp (not_or.mp hform).2)
    rw [if_pos (Or.inl (by exact_mod_cast hbelow)), ← hvalue]
    exact hnumeral

theorem Halfway.shows :
    Shows x ((if |toRat x| < 10 ^ 10 ∨ n % 2 = 1 then (n + 1 : ℚ) else n) * 10 ^ k) := by
  have hnumeral := h.adaptiveNumeral_shown hx
  have hne : toRat x ≠ 0 := by
    rw [← abs_pos, h.abs_eq]
    positivity
  have hsigned := signed_withSign hnumeral hnumeral.isZeroText_iff (isNegative x)
  rw [← toList_calculatorText hx none] at hsigned
  simp only [(isNegative_iff hx hne).trans (lt_zero_iff hx)] at hsigned
  exact hsigned

end Halfway

/-- A number halfway between two neighbours is shown by the one of greater magnitude exactly if it is
below `10 ^ 10` or the last digit of the lower neighbour is odd; else it is shown by the lower one. -/
theorem halfway_shown {x : Float} {n : Nat} {k : Int} (hx : x.isFinite = true) (h : Halfway x n k) :
    (Shows x ((n + 1) * 10 ^ k) ↔ |toRat x| < 10 ^ 10 ∨ n % 2 = 1) ∧
      (Shows x (n * 10 ^ k) ↔ ¬ (|toRat x| < 10 ^ 10 ∨ n % 2 = 1)) := by
  have hpow : (0 : ℚ) < 10 ^ k := by positivity
  have hdiffer : (n + 1 : ℚ) * 10 ^ k ≠ n * 10 ^ k :=
    fun hsame => absurd (mul_right_cancel₀ hpow.ne' hsame) (by simp)
  have hshows := h.shows hx
  split at hshows
  · next hupper =>
    exact ⟨iff_of_true hshows hupper,
      iff_of_false (fun hlower => hdiffer (hshows.unique hlower)) (not_not_intro hupper)⟩
  · next hlower =>
    exact ⟨iff_of_false (fun hupper => hdiffer (hupper.unique hshows)) hlower,
      iff_of_true hshows hlower⟩

/-- Halfway to `10 ^ 10` the carry changes the form, and the number is rounded away from zero there
too. -/
theorem halfway_shown_carry :
    (-9999999999.5 : Float).isFinite = true ∧ Halfway (-9999999999.5) 9999999999 0 ∧
      |toRat (-9999999999.5)| < 10 ^ 10 ∧ Shows (-9999999999.5) ((9999999999 + 1) * 10 ^ (0 : Int)) := by
  have hfinite : (-9999999999.5 : Float).isFinite = true := by decide
  have hunpacked : unpacked (-9999999999.5) = .finite .negative 5242879999737856 (-19) (by decide) := by
    rfl
  have hexact : |toRat (-9999999999.5)| = 5242879999737856 * 2 ^ (-19 : Int) := by
    rw [toRat, hunpacked, ratOf, abs_neg]
    norm_num
  have hhalfway : Halfway (-9999999999.5) 9999999999 0 :=
    ⟨by norm_num, by norm_num, by rw [hexact]; norm_num⟩
  have hbelow : |toRat (-9999999999.5)| < 10 ^ 10 := by
    rw [hexact]
    norm_num
  refine ⟨hfinite, hhalfway, hbelow, ?_⟩
  have hshows := (halfway_shown hfinite hhalfway).1.mpr (Or.inl hbelow)
  exact_mod_cast hshows

/-- With a power of ten a number can be shown by its lower neighbour. -/
theorem halfway_shown_lower :
    (12345678905 : Float).isFinite = true ∧ Halfway 12345678905 1234567890 1 ∧
      calculatorText 12345678905 none = "1.23456789E10" ∧
      ¬ Shows 12345678905 ((1234567890 + 1) * 10 ^ (1 : Int)) := by
  have hfinite : (12345678905 : Float).isFinite = true := by decide
  have hunpacked : unpacked 12345678905 = .finite .positive 6472691301744640 (-19) (by decide) := by
    rfl
  have hexact : |toRat 12345678905| = 6472691301744640 * 2 ^ (-19 : Int) := by
    rw [toRat, hunpacked, ratOf]
    norm_num
  have hhalfway : Halfway 12345678905 1234567890 1 :=
    ⟨by norm_num, by norm_num, by rw [hexact]; norm_num⟩
  refine ⟨hfinite, hhalfway, by decide +kernel, fun hupper => ?_⟩
  have hlarge : ¬ (|toRat 12345678905| < 10 ^ 10 ∨ 1234567890 % 2 = 1) := by
    rw [hexact]
    norm_num
  have hshows := hhalfway.shows hfinite
  rw [if_neg hlarge] at hshows
  exact absurd (hupper.unique hshows) (by norm_num)

end AnswerCheck.Decimal
