import AnswerCheck.Proofs.Decimal.Numerals
import AnswerCheck.Proofs.Text.Digits

/-! # Numerals as they stand in prose

In prose a numeral has digits on both sides of its point, and maybe a minus sign in front. It is read
whole if what follows cannot continue it, and as a text of its own it denotes the same number.
-/

set_option autoImplicit false

namespace AnswerCheck.Decimal

open Text

/-- The text is an unsigned numeral without a point at either end. -/
inductive PlainNumeral : List Char → Decimal → Prop
  | mk {whole point fraction exponent : List Char} {power : Int} (hwhole : IsDigits whole)
      (hne : whole ≠ []) (hfraction : Fraction point fraction) (hpoint : fraction = [] → point = [])
      (hpower : Power exponent power) :
      PlainNumeral (whole ++ point ++ exponent) (ofParts whole fraction power)

/-- The text is a numeral with a minus sign or none, and denotes the number. -/
inductive ProseNumeral : List Char → Float → Prop
  | unsigned {text : List Char} {d : Decimal} (h : PlainNumeral text d) : ProseNumeral text d.toFloat
  | minus {text : List Char} {d : Decimal} (h : PlainNumeral text d) :
      ProseNumeral ('-' :: text) (-d.toFloat)

variable {text rest : List Char} {d : Decimal} {value : Float}

theorem PlainNumeral.numeral (h : PlainNumeral text d) : Numeral text d := by
  obtain ⟨hwhole, hne, hfraction, -, hpower⟩ := h
  exact Numeral.mk hwhole hfraction hpower (by simp [hne])

theorem PlainNumeral.head (h : PlainNumeral text d) :
    ∃ c more, text = c :: more ∧ c.isDigit = true := by
  obtain ⟨hwhole, hne, -, -, -⟩ := h
  rename_i whole point fraction exponent power
  cases whole with
  | nil => exact absurd rfl hne
  | cons c whole => exact ⟨c, _, rfl, hwhole c List.mem_cons_self⟩

theorem ProseNumeral.ne_nil (h : ProseNumeral text value) : text ≠ [] := by
  cases h with
  | unsigned h =>
    obtain ⟨c, more, rfl, -⟩ := h.head
    simp
  | minus h => simp

theorem ProseNumeral.mem (h : ProseNumeral text value) {c : Char} (hc : c ∈ text) :
    c.isDigit = true ∨ c = '.' ∨ c = 'e' ∨ c = 'E' ∨ c = '+' ∨ c = '-' := by
  cases h with
  | unsigned h => exact h.numeral.mem hc
  | minus h =>
    obtain rfl | hc := List.mem_cons.mp hc
    · simp
    · exact h.numeral.mem hc

/-- The characters of numerals that are no digits. -/
def numeralMarks : List Char :=
  ['.', 'e', 'E', '+', '-']

/-- What holds of the digits and of the marks of numerals holds of a numeral. -/
theorem ProseNumeral.all (h : ProseNumeral text value) {p : Char → Bool}
    (hdigit : ∀ c, c.isDigit = true → p c = true) (hmarks : numeralMarks.all p = true) :
    ∀ c ∈ text, p c = true := by
  intro c hc
  obtain hc | hc := h.mem hc
  · exact hdigit c hc
  · exact List.all_eq_true.mp hmarks c (by simpa [numeralMarks] using hc)

theorem ProseNumeral.not_mem (h : ProseNumeral text value) {c : Char} (hdigit : c.isDigit = false)
    (hmarks : numeralMarks.contains c = false) : c ∉ text := by
  intro hc
  obtain hc | hc := h.mem hc
  · rw [hdigit] at hc
    cases hc
  · rw [Bool.eq_false_iff] at hmarks
    exact hmarks (by simpa [numeralMarks] using hc)

theorem ProseNumeral.not_blank (h : ProseNumeral text value) : ∀ c ∈ text, isBlank c = false := by
  have hall := h.all (p := fun c => !isBlank c) (fun c hc => by rw [isBlank_of_isDigit hc]; rfl)
    (by decide)
  simpa using hall

/-! ## Reading in a text -/

theorem mantissa?_append {whole point fraction tail : List Char} (hwhole : IsDigits whole)
    (hne : whole ≠ []) (hfraction : Fraction point fraction) (hpoint : fraction = [] → point = [])
    (htail : Stops (fun c => c.isDigit || c = '.') tail) :
    mantissa? (whole ++ point ++ tail) = some ((whole, fraction), tail) := by
  have hdigit : Stops Char.isDigit tail := htail.mono fun c hc => by simp [hc]
  cases hfraction with
  | none =>
    rw [List.append_nil, mantissa?, run?_append hne hwhole hdigit]
    cases tail with
    | nil => rfl
    | cons c tail =>
      have hc := stops_cons.mp htail
      split
      · contradiction
      · next heq =>
        obtain ⟨-, rfl, -⟩ := by simpa using heq
        cases hc
      · next heq =>
        obtain ⟨rfl, rfl⟩ := by simpa using heq
        rfl
  | point hds =>
    have hfraction : fraction ≠ [] := by
      rintro rfl
      cases hpoint rfl
    have hstop : Stops Char.isDigit ('.' :: (fraction ++ tail)) := stops_cons.mpr rfl
    rw [List.append_assoc, List.cons_append, mantissa?, run?_append hne hwhole hstop]
    simp only [run?_append hfraction hds hdigit]

/-- What `signed?` reads after the sign. -/
theorem mantissa?_exponent (h : PlainNumeral text d) (hrest : Stops continuesNumeral rest) :
    ∃ whole fraction tail power, mantissa? (text ++ rest) = some ((whole, fraction), tail) ∧
      exponentOrZero tail = (power, rest) ∧ d = ofParts whole fraction power := by
  obtain ⟨hwhole, hne, hfraction, hpoint, hpower⟩ := h
  have hplain : Stops (fun c => c.isDigit || c = '.') rest :=
    hrest.mono fun c hc => by simp_all [continuesNumeral]
  have htail := stops_append hpower.stops hplain
  rw [List.append_assoc]
  exact ⟨_, _, _, _, mantissa?_append hwhole hne hfraction hpoint htail,
    exponentOrZero_append hpower hrest, rfl⟩

/-- A numeral is read whole if the text after it cannot continue it. -/
theorem signed?_append (h : ProseNumeral text value) (hrest : Stops continuesNumeral rest) :
    signed? (text ++ rest) = some (value, rest) := by
  cases h with
  | unsigned h =>
    obtain ⟨c, more, htext, hc⟩ := h.head
    obtain ⟨whole, fraction, tail, power, hmantissa, hexponent, rfl⟩ := mantissa?_exponent h hrest
    subst htext
    have hminus : c ≠ '-' := ne_of_kind hc rfl
    rw [List.cons_append] at hmantissa ⊢
    unfold signed?
    split
    · next heq =>
      split at heq
      · next hcons => exact absurd (List.cons.inj hcons).1 hminus
      · obtain ⟨rfl, rfl⟩ := Prod.mk.inj heq
        rw [hmantissa]
        simp only [hexponent]
        rfl
  | minus h =>
    obtain ⟨whole, fraction, tail, power, hmantissa, hexponent, rfl⟩ := mantissa?_exponent h hrest
    rw [List.cons_append, signed?]
    simp only [hmantissa, hexponent]
    rfl

theorem signed?_of_not_digit {c : Char} (hc : c.isDigit = false) (hminus : c ≠ '-') (s : List Char) :
    signed? (c :: s) = none := by
  unfold signed?
  split
  next heq =>
    split at heq
    · next hcons => exact absurd (List.cons.inj hcons).1 hminus
    · obtain ⟨rfl, rfl⟩ := Prod.mk.inj heq
      simp [mantissa?, run?, hc]

/-! ## Reading as a text of its own -/

/-- A text that starts with a digit is not the name of a number that is not finite. -/
theorem map_toLower_ne {c : Char} {more name : List Char} (hc : c.isDigit = true)
    (hname : Stops Char.isDigit name) : (c :: more).map Char.toLower ≠ name := by
  rintro rfl
  rw [List.map_cons, toLower_of_isDigit hc] at hname
  have := stops_cons.mp hname
  rw [hc] at this
  cases this

theorem ofText?_eq_some (h : ProseNumeral text value) : ofText? text = some value := by
  have hunsigned {text : List Char} {d : Decimal} (h : PlainNumeral text d) :
      unsigned? text = some (d, []) := by
    have hread := unsigned?_append h.numeral (stops_nil continuesNumeral)
    rwa [List.append_nil] at hread
  have hnames {text : List Char} {d : Decimal} (h : PlainNumeral text d) :
      ¬(text.map Char.toLower = "inf".toList ∨ text.map Char.toLower = "infinity".toList) ∧
        text.map Char.toLower ≠ "nan".toList := by
    obtain ⟨c, more, rfl, hc⟩ := h.head
    exact ⟨not_or.mpr ⟨map_toLower_ne hc (stops_cons.mpr rfl), map_toLower_ne hc (stops_cons.mpr rfl)⟩,
      map_toLower_ne hc (stops_cons.mpr rfl)⟩
  cases h with
  | unsigned h =>
    have hsign : sign text = (false, text) := by
      obtain ⟨c, more, rfl, hc⟩ := h.head
      exact sign_cons_digit hc
    simp only [ofText?, hsign, if_neg (hnames h).1, if_neg (hnames h).2, hunsigned h]
    rfl
  | minus h =>
    simp only [ofText?, sign, if_neg (hnames h).1, if_neg (hnames h).2, hunsigned h]
    rfl

end AnswerCheck.Decimal
