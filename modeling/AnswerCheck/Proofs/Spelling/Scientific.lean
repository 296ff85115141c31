import AnswerCheck.Proofs.Decimal.Prose
import AnswerCheck.Proofs.Decimal.Value
import AnswerCheck.Proofs.Spelling.Rules

/-! # Scientific notation keeps the values of numerals

A numeral becomes a numeral of the same value that starts with the same character, if the text after
it cannot continue it. A numeral that starts with its point is rewritten from its first digit on, and
one without digits after its point stays as it is.
-/

set_option autoImplicit false

namespace AnswerCheck.Spelling

open Text Decimal

variable {whole fraction exponent text s t : List Char} {power : Int} {d : Decimal}

/-! ## Numbers without a sign in front -/

/-- The exponent of a number, as it is written after the mantissa. -/
def exponentText? : Recognizer (List Char)
  | c :: s =>
    if c = 'e' || c = 'E' then
      (run? Char.isDigit (signText ['+', '-'] s).2).map fun (power, rest) =>
        ('E' :: (if (signText ['+', '-'] s).1 = ['+'] then [] else (signText ['+', '-'] s).1) ++ power,
          rest)
    else none
  | [] => none

/-- A number with an exponent and without a sign. -/
def unsignedScientific? : Recognizer (List Char) := fun s =>
  (mantissaText? s).bind fun (mantissa, s) =>
    (exponentText? s).map fun (exponent, rest) => (shortMantissa mantissa ++ exponent, rest)

theorem scientific?_eq (s : List Char) :
    scientific? s =
      (unsignedScientific? (signText ['-'] s).2).map fun (out, rest) =>
        ((signText ['-'] s).1 ++ out, rest) := by
  simp only [scientific?, unsignedScientific?, Option.bind_eq_bind]
  cases mantissaText? (signText ['-'] s).2 with
  | none => rfl
  | some found =>
    obtain ⟨mantissa, rest⟩ := found
    cases rest with
    | nil => rfl
    | cons c rest =>
      simp only [Option.bind_some, exponentText?]
      split
      · cases run? Char.isDigit (signText ['+', '-'] rest).2 with
        | none => rfl
        | some found => simp
      · rfl

theorem signText_minus (s : List Char) : signText ['-'] ('-' :: s) = (['-'], s) := rfl

theorem signText_of_ne {c : Char} (hc : c ≠ '-') (s : List Char) :
    signText ['-'] (c :: s) = ([], c :: s) := by
  simp [signText, hc]

theorem unsignedScientific?_of_not_digit {c : Char} (hc : c.isDigit = false) (s : List Char) :
    unsignedScientific? (c :: s) = none := by
  simp [unsignedScientific?, mantissaText?, run?, hc]

theorem scientific?_of_not_digit {c : Char} (hc : c.isDigit = false) (hminus : c ≠ '-') (s : List Char) :
    scientific? (c :: s) = none := by
  rw [scientific?_eq, signText_of_ne hminus, unsignedScientific?_of_not_digit hc]
  rfl

/-- A minus sign does not change how the text after it is rewritten. -/
theorem tidyScientific_minus (s : List Char) : tidyScientific ('-' :: s) = '-' :: tidyScientific s := by
  unfold tidyScientific
  have hminus : scientific? ('-' :: s) =
      (unsignedScientific? s).map fun (out, rest) => ('-' :: out, rest) := by
    rw [scientific?_eq, signText_minus]
    rfl
  cases hnumber : unsignedScientific? s with
  | none => exact replaceAll_cons_none (by rw [hminus, hnumber]; rfl)
  | some found =>
    obtain ⟨out, rest⟩ := found
    cases s with
    | nil => cases hnumber
    | cons c s =>
      have hc : c ≠ '-' := by
        rintro rfl
        rw [unsignedScientific?_of_not_digit rfl] at hnumber
        cases hnumber
      have hplain : scientific? (c :: s) = some (out, rest) := by
        rw [scientific?_eq, signText_of_ne hc, hnumber]
        rfl
      obtain ⟨sign, mantissa, mark, powerSign, power, hs, -⟩ := scientific?_eq_some hplain
      rw [hs] at hplain hminus hnumber ⊢
      rw [replaceAll_append_some (by simp) hplain]
      rw [hnumber] at hminus
      rw [← List.cons_append, replaceAll_append_some (by simp) hminus]
      rfl

theorem tidyScientific_cons {c : Char} (hc : c.isDigit = false) (s : List Char) :
    tidyScientific (c :: s) = c :: tidyScientific s := by
  by_cases hminus : c = '-'
  · rw [hminus, tidyScientific_minus]
  · exact replaceAll_cons_none (scientific?_of_not_digit hc hminus s)

theorem tidyScientific_append (h : ∀ c ∈ t, c.isDigit = false) (s : List Char) :
    tidyScientific (t ++ s) = t ++ tidyScientific s := by
  induction t with
  | nil => rfl
  | cons c t ih =>
    rw [List.cons_append, tidyScientific_cons (h c List.mem_cons_self),
      ih fun d hd => h d (List.mem_cons_of_mem c hd), List.cons_append]

/-! ## Mantissas and exponents -/

theorem mantissaText?_whole (hwhole : IsDigits whole) (hne : whole ≠ [])
    (ht : Stops (fun c => c.isDigit || c = '.') t) : mantissaText? (whole ++ t) = some (whole, t) := by
  have hdigit : Stops Char.isDigit t := ht.mono fun c hc => by simp [hc]
  simp only [mantissaText?, Option.bind_eq_bind, run?_append hne hwhole hdigit, Option.bind_some]
  split
  · exact absurd (stops_cons.mp ht) (by decide)
  · rfl

theorem mantissaText?_point (hwhole : IsDigits whole) (hne : whole ≠ []) (ht : Stops Char.isDigit t) :
    mantissaText? (whole ++ '.' :: t) = some (whole, '.' :: t) := by
  have hpoint : Stops Char.isDigit ('.' :: t) := stops_cons.mpr rfl
  have hnone : run? Char.isDigit t = none := by
    cases t with
    | nil => rfl
    | cons c t => simp [run?, stops_cons.mp ht]
  simp only [mantissaText?, Option.bind_eq_bind, run?_append hne hwhole hpoint, Option.bind_some, hnone]

theorem mantissaText?_fraction (hwhole : IsDigits whole) (hne : whole ≠ [])
    (hfraction : IsDigits fraction) (hne' : fraction ≠ []) (ht : Stops Char.isDigit t) :
    mantissaText? (whole ++ '.' :: (fraction ++ t)) = some (whole ++ '.' :: fraction, t) := by
  have hpoint : Stops Char.isDigit ('.' :: (fraction ++ t)) := stops_cons.mpr rfl
  simp only [mantissaText?, Option.bind_eq_bind, run?_append hne hwhole hpoint, Option.bind_some,
    run?_append hne' hfraction ht]

/-- An exponent as it is written in the end. -/
def shortExponent : List Char → List Char
  | [] => []
  | _ :: '+' :: ds => 'E' :: ds
  | _ :: ds => 'E' :: ds

theorem exponentText?_none (h : Stops continuesNumeral s) : exponentText? s = none := by
  cases s with
  | nil => rfl
  | cons c s =>
    have hc := stops_cons.mp h
    have hmark : ¬ (c = 'e' || c = 'E') = true := by
      intro hmark
      simp_all [continuesNumeral]
    rw [exponentText?, if_neg hmark]

theorem signText_digits {ds : List Char} (hds : IsDigits ds) (hne : ds ≠ []) :
    signText ['+', '-'] (ds ++ s) = ([], ds ++ s) := by
  cases ds with
  | nil => exact absurd rfl hne
  | cons c ds =>
    have hc := hds c List.mem_cons_self
    have hplus : c ≠ '+' := ne_of_kind hc rfl
    have hminus : c ≠ '-' := ne_of_kind hc rfl
    simp [signText, hplus, hminus]

theorem exponentText?_cons {mark : Char} (hmark : mark = 'e' ∨ mark = 'E') (s : List Char) :
    exponentText? (mark :: s) =
      (run? Char.isDigit (signText ['+', '-'] s).2).map fun (power, rest) =>
        ('E' :: (if (signText ['+', '-'] s).1 = ['+'] then [] else (signText ['+', '-'] s).1) ++ power,
          rest) := by
  rw [exponentText?, if_pos (by simpa using hmark)]

theorem shortExponent_digits {mark : Char} {ds : List Char} (hds : IsDigits ds) :
    shortExponent (mark :: ds) = 'E' :: ds := by
  unfold shortExponent
  split
  · next heq => cases heq
  · next heq =>
    obtain ⟨-, rfl⟩ := List.cons.inj heq
    cases hds '+' List.mem_cons_self
  · next heq =>
    obtain ⟨-, rfl⟩ := List.cons.inj heq
    rfl

theorem exponentText?_append (h : Power exponent power) (hexponent : exponent ≠ [])
    (hs : Stops Char.isDigit s) : exponentText? (exponent ++ s) = some (shortExponent exponent, s) := by
  cases h with
  | none => exact absurd rfl hexponent
  | plain hmark hds hne =>
    rw [List.cons_append, exponentText?_cons hmark, signText_digits hds hne]
    simp only [run?_append hne hds hs, shortExponent_digits hds]
    rfl
  | plus hmark hds hne =>
    rw [List.cons_append, List.cons_append, exponentText?_cons hmark]
    have hsign (t : List Char) : signText ['+', '-'] ('+' :: t) = (['+'], t) := rfl
    simp only [hsign, run?_append hne hds hs]
    rfl
  | minus hmark hds hne =>
    rw [List.cons_append, List.cons_append, exponentText?_cons hmark]
    have hsign (t : List Char) : signText ['+', '-'] ('-' :: t) = (['-'], t) := rfl
    simp only [hsign, run?_append hne hds hs]
    rfl

theorem power_shortExponent (h : Power exponent power) : Power (shortExponent exponent) power := by
  cases h with
  | none => exact Power.none
  | plain _ hds hne =>
    rw [shortExponent_digits hds]
    exact Power.plain (Or.inr rfl) hds hne
  | plus _ hds hne => exact Power.plain (Or.inr rfl) hds hne
  | minus _ hds hne => exact Power.minus (Or.inr rfl) hds hne

/-! ## Mantissas without their last zeros -/

theorem shortMantissa_whole (hwhole : IsDigits whole) : shortMantissa whole = whole := by
  rw [shortMantissa, hwhole.not_contains_point]
  rfl

/-- The zeros at the end of a fraction go, and the point too if nothing is left after it. -/
theorem shortMantissa_fraction (hwhole : IsDigits whole) (hfraction : IsDigits fraction) :
    ∃ point fraction' zeros, shortMantissa (whole ++ '.' :: fraction) = whole ++ point ∧
      Fraction point fraction' ∧ (fraction' = [] → point = []) ∧ fraction = fraction' ++ zeros ∧
      ∀ c ∈ zeros, c = '0' := by
  obtain ⟨fraction', zeros, hshort, hzeros, hall, -⟩ := dropZeros_fraction whole fraction
  subst hzeros
  have hdigits : IsDigits fraction' := fun c hc => hfraction c (List.mem_append_left zeros hc)
  have hcontains : (whole ++ '.' :: (fraction' ++ zeros)).contains '.' = true := by simp
  rw [shortMantissa, if_pos hcontains, hshort]
  cases fraction' with
  | nil =>
    refine ⟨[], [], zeros, ?_, Fraction.none, fun _ => rfl, rfl, hall⟩
    rw [List.append_nil]
    exact dropEndWhile_append hwhole.stops_reverse (by simp)
  | cons c fraction' =>
    refine ⟨'.' :: c :: fraction', c :: fraction', zeros, ?_, Fraction.point hdigits, by simp, rfl, hall⟩
    have h := dropEndWhile_append (p := (· == '.')) (s := whole ++ '.' :: c :: fraction') (t := []) ?_
      (by simp)
    · rwa [List.append_nil] at h
    · rw [List.reverse_append, List.reverse_cons, List.append_assoc]
      have hne : (c :: fraction').reverse ≠ [] := by simp
      intro d hd
      rw [List.head?_append_of_ne_nil _ hne] at hd
      exact hdigits.stops_reverse d hd

/-! ## Values -/

theorem valueOf_append_zeros {ds zeros : List Char} (h : ∀ c ∈ zeros, c = '0') :
    valueOf (ds ++ zeros) = valueOf ds * 10 ^ zeros.length := by
  rw [valueOf_append, valueOf_zeros h, Nat.add_zero, Nat.mul_comm]

/-- Zeros at the end of a fraction make no difference. -/
theorem value_ofParts_zeros {zeros : List Char} (h : ∀ c ∈ zeros, c = '0') :
    (ofParts whole (fraction ++ zeros) power).value = (ofParts whole fraction power).value := by
  unfold ofParts value
  simp only
  rw [← List.append_assoc, valueOf_append_zeros h, List.length_append]
  push_cast
  have hexp : power - ((fraction.length : Int) + zeros.length) =
      power - fraction.length - zeros.length := by
    ring
  rw [hexp, zpow_sub₀ (by norm_num : (10 : ℚ) ≠ 0) _ (zeros.length : Int), zpow_natCast]
  field_simp

/-! ## Numerals -/

theorem unsignedScientific?_none {mantissa : List Char} (hmantissa : mantissaText? s = some (mantissa, t))
    (ht : exponentText? t = none) : unsignedScientific? s = none := by
  simp only [unsignedScientific?, hmantissa, Option.bind_some, ht, Option.map_none]

theorem unsignedScientific?_some {mantissa out rest : List Char}
    (hmantissa : mantissaText? s = some (mantissa, t)) (ht : exponentText? t = some (out, rest)) :
    unsignedScientific? s = some (shortMantissa mantissa ++ out, rest) := by
  simp only [unsignedScientific?, hmantissa, Option.bind_some, ht, Option.map_some]

/-- Digits that no number with an exponent starts with stay. -/
theorem tidyScientific_digits {ds : List Char} (hds : IsDigits ds)
    (h : ∀ es, es ≠ [] → IsDigits es → unsignedScientific? (es ++ t) = none) :
    tidyScientific (ds ++ t) = ds ++ tidyScientific t := by
  induction ds with
  | nil => rfl
  | cons c ds ih =>
    have hminus : c ≠ '-' := ne_of_kind (hds c List.mem_cons_self) rfl
    have hnone : scientific? (c :: (ds ++ t)) = none := by
      rw [scientific?_eq, signText_of_ne hminus, ← List.cons_append, h _ (by simp) hds]
      rfl
    unfold tidyScientific at ih ⊢
    rw [List.cons_append, replaceAll_cons_none hnone, ih fun d hd => hds d (List.mem_cons_of_mem c hd),
      List.cons_append]

theorem tidyScientific_some {used out rest : List Char} (hne : used ≠ [])
    (h : unsignedScientific? (used ++ rest) = some (out, rest)) :
    tidyScientific (used ++ rest) = out ++ tidyScientific rest := by
  refine replaceAll_append_some hne ?_
  cases used with
  | nil => exact absurd rfl hne
  | cons c used =>
    have hc : c ≠ '-' := by
      rintro rfl
      rw [List.cons_append, unsignedScientific?_of_not_digit rfl] at h
      cases h
    rw [List.cons_append, scientific?_eq, signText_of_ne hc, ← List.cons_append, h]
    rfl

variable (hs : Stops continuesNumeral s)
include hs

theorem Power.stops_append (h : Power exponent power) :
    Stops (fun c => c.isDigit || c = '.') (exponent ++ s) :=
  Text.stops_append h.stops (hs.mono fun c hc => by simp_all [continuesNumeral])

/-- A whole number and its exponent, if it has one. -/
theorem tidyScientific_whole (hwhole : IsDigits whole) (hne : whole ≠ []) (h : Power exponent power) :
    tidyScientific (whole ++ exponent ++ s) = whole ++ shortExponent exponent ++ tidyScientific s := by
  have hdigit : Stops Char.isDigit s := hs.mono fun c hc => by simp [continuesNumeral, hc]
  by_cases hexponent : exponent = []
  · subst hexponent
    rw [shortExponent, List.append_nil]
    refine tidyScientific_digits hwhole fun ds hne hds => ?_
    have hmantissa := mantissaText?_whole hds hne (Power.stops_append hs Power.none)
    exact unsignedScientific?_none hmantissa (exponentText?_none hs)
  · have hmantissa := mantissaText?_whole hwhole hne (Power.stops_append hs h)
    have hnumber := unsignedScientific?_some hmantissa (exponentText?_append h hexponent hdigit)
    rw [← List.append_assoc, shortMantissa_whole hwhole] at hnumber
    exact tidyScientific_some (by simp [hne]) hnumber

/-- An exponent without a number in front of it stays. -/
theorem tidyScientific_exponent (h : Power exponent power) :
    tidyScientific (exponent ++ s) = exponent ++ tidyScientific s := by
  have hdigits {ds : List Char} (hds : IsDigits ds) (hne : ds ≠ []) :
      tidyScientific (ds ++ s) = ds ++ tidyScientific s := by
    have := tidyScientific_whole hs hds hne Power.none
    rwa [shortExponent, List.append_nil] at this
  have hnot {mark : Char} (hmark : mark = 'e' ∨ mark = 'E') : mark.isDigit = false := by
    obtain rfl | rfl := hmark <;> rfl
  cases h with
  | none => rfl
  | plain hmark hds hne =>
    rw [List.cons_append, tidyScientific_cons (hnot hmark), hdigits hds hne, List.cons_append]
  | plus hmark hds hne =>
    rw [List.cons_append, List.cons_append, tidyScientific_cons (hnot hmark), tidyScientific_cons rfl,
      hdigits hds hne, List.cons_append, List.cons_append]
  | minus hmark hds hne =>
    rw [List.cons_append, List.cons_append, tidyScientific_cons (hnot hmark), tidyScientific_cons rfl,
      hdigits hds hne, List.cons_append, List.cons_append]

/-- A whole number with a point stays, also with an exponent after the point. -/
theorem tidyScientific_point (hwhole : IsDigits whole) (h : Power exponent power) :
    tidyScientific (whole ++ ['.'] ++ exponent ++ s) = whole ++ ['.'] ++ exponent ++ tidyScientific s := by
  have hdigit : Stops Char.isDigit (exponent ++ s) :=
    (Power.stops_append hs h).mono fun c hc => by simp [hc]
  have htext (t : List Char) : whole ++ ['.'] ++ exponent ++ t = whole ++ '.' :: (exponent ++ t) := by
    simp
  rw [htext, htext, tidyScientific_digits hwhole, tidyScientific_cons rfl, tidyScientific_exponent hs h]
  intro ds hne hds
  exact unsignedScientific?_none (mantissaText?_point hds hne hdigit) rfl

/-- A number with a fraction stays if it has no exponent. -/
theorem tidyScientific_fraction (hwhole : IsDigits whole) (hfraction : IsDigits fraction) :
    tidyScientific (whole ++ '.' :: fraction ++ [] ++ s) =
      whole ++ '.' :: fraction ++ [] ++ tidyScientific s := by
  have hdigit : Stops Char.isDigit s := hs.mono fun c hc => by simp [continuesNumeral, hc]
  by_cases hafter : fraction = []
  · subst hafter
    exact tidyScientific_point hs hwhole Power.none
  have htext (t : List Char) : whole ++ '.' :: fraction ++ [] ++ t = whole ++ '.' :: (fraction ++ t) := by
    simp
  have hrest := tidyScientific_whole hs hfraction hafter Power.none
  rw [shortExponent, List.append_nil] at hrest
  rw [htext, htext, tidyScientific_digits hwhole, tidyScientific_cons rfl, hrest]
  intro ds hne hds
  exact unsignedScientific?_none (mantissaText?_fraction hds hne hfraction hafter hdigit)
    (exponentText?_none hs)

/-- A number with a fraction loses the zeros at the end of it if it has an exponent. -/
theorem tidyScientific_shortened {point : List Char} (hwhole : IsDigits whole)
    (hne : whole ≠ []) (hfraction : IsDigits fraction) (hafter : fraction ≠ [])
    (h : Power exponent power) (hexponent : exponent ≠ [])
    (hshort : shortMantissa (whole ++ '.' :: fraction) = whole ++ point) :
    tidyScientific (whole ++ '.' :: fraction ++ exponent ++ s) =
      whole ++ point ++ shortExponent exponent ++ tidyScientific s := by
  have hdigit : Stops Char.isDigit s := hs.mono fun c hc => by simp [continuesNumeral, hc]
  have hmantissa := mantissaText?_fraction hwhole hne hfraction hafter
    ((Power.stops_append hs h).mono (q := Char.isDigit) fun c hc => by simp [hc])
  have hnumber := unsignedScientific?_some hmantissa (exponentText?_append h hexponent hdigit)
  rw [hshort, ← List.cons_append, ← List.append_assoc, ← List.append_assoc] at hnumber
  exact tidyScientific_some (by simp) hnumber

omit hs

/-- What a piece becomes in front of any text that does not go on with it, it becomes alone. -/
theorem tidyScientific_eq_of_append {t' : List Char}
    (h : ∀ s, Stops continuesNumeral s → tidyScientific (t ++ s) = t' ++ tidyScientific s) :
    tidyScientific t = t' := by
  have hself := h [] (stops_nil _)
  have hnil : tidyScientific [] = [] := rfl
  rwa [hnil, List.append_nil, List.append_nil] at hself

/-- A numeral with digits in front of its point keeps its value and stays as plain as it was. -/
theorem tidyScientific_mantissa (hwhole : IsDigits whole) (hne : whole ≠ []) {point : List Char}
    (hfraction : Fraction point fraction) (h : Power exponent power) :
    ∃ point' fraction' exponent', Fraction point' fraction' ∧ Power exponent' power ∧
      ((fraction = [] → point = []) → fraction' = [] → point' = []) ∧
      (ofParts whole fraction' power).value = (ofParts whole fraction power).value ∧
      ∀ s, Stops continuesNumeral s → tidyScientific (whole ++ point ++ exponent ++ s) =
        whole ++ point' ++ exponent' ++ tidyScientific s := by
  cases hfraction with
  | none =>
    refine ⟨[], [], _, Fraction.none, power_shortExponent h, fun _ _ => rfl, rfl, fun s hs => ?_⟩
    rw [List.append_nil]
    exact tidyScientific_whole hs hwhole hne h
  | point hds =>
    obtain hstays | ⟨hafter, hexponent⟩ :
        (fraction = [] ∨ exponent = []) ∨ fraction ≠ [] ∧ exponent ≠ [] := by
      tauto
    · refine ⟨_, _, exponent, Fraction.point hds, h, fun hplain => hplain, rfl, fun s hs => ?_⟩
      obtain rfl | rfl := hstays
      · exact tidyScientific_point hs hwhole h
      · exact tidyScientific_fraction hs hwhole hds
    · obtain ⟨point, fraction', zeros, hshort, hfraction', hpoint, rfl, hzeros⟩ :=
        shortMantissa_fraction hwhole hds
      exact ⟨point, fraction', _, hfraction', power_shortExponent h, fun _ => hpoint,
        (value_ofParts_zeros hzeros).symm, fun s hs =>
          tidyScientific_shortened hs hwhole hne hds hafter h hexponent hshort⟩

/-- A numeral becomes a numeral of the same value that starts with the same character, and the text
after it does not matter if it cannot continue it. -/
theorem tidyScientific_numeral (h : Numeral text d) :
    ∃ text' d', Numeral text' d' ∧ d'.value = d.value ∧ text'.head? = text.head? ∧
      ∀ s, Stops continuesNumeral s → tidyScientific (text ++ s) = text' ++ tidyScientific s := by
  obtain ⟨hwhole, hfraction, hpower, hne⟩ := h
  rename_i whole point fraction exponent power
  by_cases hbefore : whole = []
  · subst hbefore
    cases hfraction with
    | none => exact absurd rfl hne
    | point hds =>
      -- The point is passed over, and what follows is rewritten as a whole number.
      rw [List.nil_append] at hne
      refine ⟨_, _, Numeral.mk hwhole (Fraction.point hds) (power_shortExponent hpower) hne, rfl, rfl,
        fun s hs => ?_⟩
      show tidyScientific ('.' :: (fraction ++ exponent ++ s)) = _
      rw [tidyScientific_cons rfl, tidyScientific_whole hs hds hne hpower]
      rfl
  · obtain ⟨point', fraction', exponent', hfraction', hpower', -, hvalue, htidy⟩ :=
      tidyScientific_mantissa hwhole hbefore hfraction hpower
    refine ⟨_, _, Numeral.mk hwhole hfraction' hpower' (by simp [hbefore]), hvalue, ?_, htidy⟩
    simp only [List.append_assoc, List.head?_append_of_ne_nil _ hbefore]

/-- A numeral in prose stays one, of the same number. -/
theorem proseNumeral_tidyScientific {value : Float} (h : ProseNumeral text value) :
    ProseNumeral (tidyScientific text) value := by
  have hplain {text : List Char} {d : Decimal} (h : PlainNumeral text d) :
      ∃ d', PlainNumeral (tidyScientific text) d' ∧ d'.toFloat = d.toFloat := by
    obtain ⟨hwhole, hne, hfraction, hpoint, hpower⟩ := h
    obtain ⟨point', fraction', exponent', hfraction', hpower', hplain, hvalue, htidy⟩ :=
      tidyScientific_mantissa hwhole hne hfraction hpower
    rw [tidyScientific_eq_of_append htidy]
    exact ⟨_, .mk hwhole hne hfraction' (hplain hpoint) hpower', toFloat_congr hvalue⟩
  cases h with
  | unsigned h =>
    obtain ⟨d', hd', heq⟩ := hplain h
    rw [← heq]
    exact .unsigned hd'
  | minus h =>
    obtain ⟨d', hd', heq⟩ := hplain h
    rw [tidyScientific_minus, ← heq]
    exact .minus hd'

end AnswerCheck.Spelling
