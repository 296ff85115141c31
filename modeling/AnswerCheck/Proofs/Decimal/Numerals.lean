import AnswerCheck.Decimal.Numeral
import AnswerCheck.Proofs.Decimal.Digits
import AnswerCheck.Proofs.Text.Replacing

/-! # The numerals of the equation grammar

An unsigned numeral has digits before or after its point, or on both sides, and maybe an exponent.
Reading takes the longest numeral that a text starts with: it takes a numeral whole if what follows
cannot continue it, and what it takes is a numeral.
-/

set_option autoImplicit false

namespace AnswerCheck.Decimal

open Text

/-- The point of a numeral with the digits after it, or neither. -/
inductive Fraction : List Char → List Char → Prop
  | none : Fraction [] []
  | point {ds : List Char} (hds : IsDigits ds) : Fraction ('.' :: ds) ds

/-- The exponent of a numeral, or nothing. -/
inductive Power : List Char → Int → Prop
  | none : Power [] 0
  | plain {mark : Char} {ds : List Char} (hmark : mark = 'e' ∨ mark = 'E') (hds : IsDigits ds)
      (hne : ds ≠ []) : Power (mark :: ds) (valueOf ds)
  | plus {mark : Char} {ds : List Char} (hmark : mark = 'e' ∨ mark = 'E') (hds : IsDigits ds)
      (hne : ds ≠ []) : Power (mark :: '+' :: ds) (valueOf ds)
  | minus {mark : Char} {ds : List Char} (hmark : mark = 'e' ∨ mark = 'E') (hds : IsDigits ds)
      (hne : ds ≠ []) : Power (mark :: '-' :: ds) (-(valueOf ds : Int))

/-- The text is a numeral that denotes the decimal. -/
inductive Numeral : List Char → Decimal → Prop
  | mk {whole point fraction exponent : List Char} {power : Int} (hwhole : IsDigits whole)
      (hfraction : Fraction point fraction) (hpower : Power exponent power)
      (hne : whole ++ fraction ≠ []) :
      Numeral (whole ++ point ++ exponent) (ofParts whole fraction power)

theorem numeral_digit {c : Char} (h : c.isDigit = true) : Numeral [c] (ofParts [c] [] 0) := by
  have hdigits : IsDigits [c] := by simpa [IsDigits] using h
  have hnumeral : Numeral ([c] ++ [] ++ []) (ofParts [c] [] 0) := .mk hdigits .none .none (by simp)
  exact hnumeral

def continuesNumeral (c : Char) : Bool :=
  c.isDigit || c = '.' || c = 'e' || c = 'E'

/-! ## Digits and points -/

theorem IsDigits.stops_reverse {ds : List Char} (h : IsDigits ds) : Stops (· == '.') ds.reverse := by
  intro c hc
  have hmem := List.mem_reverse.mp (List.mem_of_mem_head? hc)
  rw [Bool.eq_false_iff]
  intro heq
  have := h c hmem
  rw [eq_of_beq heq] at this
  cases this

theorem IsDigits.not_contains_point {ds : List Char} (h : IsDigits ds) : ds.contains '.' = false := by
  rw [List.contains_eq_any_beq, List.any_eq_false]
  intro c hc heq
  have hdigit := h c hc
  rw [← eq_of_beq heq] at hdigit
  cases hdigit

/-- Without the zeros at its end a numeral keeps its point. -/
theorem dropZeros_fraction (whole fraction : List Char) :
    ∃ fraction' zeros, dropEndWhile (· == '0') (whole ++ '.' :: fraction) = whole ++ '.' :: fraction' ∧
      fraction = fraction' ++ zeros ∧ (∀ c ∈ zeros, c = '0') ∧ fraction'.getLast? ≠ some '0' := by
  obtain ⟨zeros, hzeros, hall⟩ := exists_eq_append_dropEndWhile (· == '0') fraction
  have hstop : Stops (· == '0') (dropEndWhile (· == '0') fraction).reverse := by
    rw [dropEndWhile, List.reverse_reverse]
    exact stops_dropWhile _ _
  have hlast : (dropEndWhile (· == '0') fraction).getLast? ≠ some '0' := by
    intro hlast
    rw [← List.head?_reverse] at hlast
    cases hstop '0' hlast
  refine ⟨dropEndWhile (· == '0') fraction, zeros, ?_, hzeros, fun c hc => eq_of_beq (hall c hc), hlast⟩
  conv_lhs => rw [hzeros]
  rw [← List.cons_append, ← List.append_assoc]
  refine dropEndWhile_append ?_ hall
  rw [List.reverse_append, List.reverse_cons, List.append_assoc]
  exact stops_append hstop (stops_cons.mpr rfl)

/-! ## Exponents -/

theorem sign_cons_digit {c : Char} {s : List Char} (h : c.isDigit = true) :
    sign (c :: s) = (false, c :: s) := by
  unfold sign
  split
  · next heq =>
    obtain ⟨rfl, -⟩ := List.cons.inj heq
    cases h
  · next heq =>
    obtain ⟨rfl, -⟩ := List.cons.inj heq
    cases h
  · rfl

theorem sign_append_digits {ds rest : List Char} (hds : IsDigits ds) (hne : ds ≠ []) :
    sign (ds ++ rest) = (false, ds ++ rest) := by
  cases ds with
  | nil => exact absurd rfl hne
  | cons c ds => exact sign_cons_digit (hds c List.mem_cons_self)

theorem exponentOrZero_append {text rest : List Char} {power : Int} (h : Power text power)
    (hrest : Stops continuesNumeral rest) : exponentOrZero (text ++ rest) = (power, rest) := by
  have hstop : Stops Char.isDigit rest := by
    intro c hc
    have := hrest c hc
    simp only [continuesNumeral, Bool.or_eq_false_iff] at this
    exact this.1.1.1
  cases h with
  | none =>
    cases rest with
    | nil => rfl
    | cons c rest =>
      have hc := stops_cons.mp hrest
      have hmark : ¬ (c = 'e' ∨ c = 'E') := by
        rintro (rfl | rfl) <;> cases hc
      rw [List.nil_append, exponentOrZero, exponent?, if_neg hmark]
      rfl
  | plain hmark hds hne =>
    rw [List.cons_append, exponentOrZero, exponent?, if_pos hmark, sign_append_digits hds hne]
    simp only [run?_append hne hds hstop]
    rfl
  | plus hmark hds hne =>
    rw [List.cons_append, List.cons_append, exponentOrZero, exponent?, if_pos hmark]
    simp only [sign, run?_append hne hds hstop]
    rfl
  | minus hmark hds hne =>
    rw [List.cons_append, List.cons_append, exponentOrZero, exponent?, if_pos hmark]
    simp only [sign, run?_append hne hds hstop]
    rfl

theorem sign_cases (s : List Char) :
    (∃ rest, s = '-' :: rest ∧ sign s = (true, rest)) ∨
      (∃ rest, s = '+' :: rest ∧ sign s = (false, rest)) ∨ sign s = (false, s) := by
  unfold sign
  split
  · exact Or.inl ⟨_, rfl, rfl⟩
  · exact Or.inr (Or.inl ⟨_, rfl, rfl⟩)
  · exact Or.inr (Or.inr rfl)

theorem exists_power (s : List Char) :
    ∃ text, s = text ++ (exponentOrZero s).2 ∧ Power text (exponentOrZero s).1 := by
  cases hexp : exponent? s with
  | none =>
    rw [exponentOrZero, hexp]
    exact ⟨[], rfl, Power.none⟩
  | some found =>
    obtain ⟨power, rest⟩ := found
    rw [exponentOrZero, hexp]
    cases s with
    | nil => cases hexp
    | cons mark s =>
      rw [exponent?] at hexp
      split at hexp
      · next hmark =>
        simp only at hexp
        split at hexp
        · next ds rest' hrun =>
          obtain ⟨rfl, rfl⟩ := Prod.mk.inj (Option.some.inj hexp)
          obtain ⟨hs, hne, hds, -⟩ := run?_eq_some hrun
          obtain ⟨s', rfl, hsign⟩ | ⟨s', rfl, hsign⟩ | hsign := sign_cases s
          · simp only [hsign] at hs ⊢
            exact ⟨mark :: '-' :: ds, by simp [hs], Power.minus hmark hds hne⟩
          · simp only [hsign] at hs ⊢
            exact ⟨mark :: '+' :: ds, by simp [hs], Power.plus hmark hds hne⟩
          · simp only [hsign] at hs ⊢
            exact ⟨mark :: ds, by simp [hs], Power.plain hmark hds hne⟩
        · cases hexp
      · cases hexp

/-! ## Numerals -/

theorem Power.stops {text : List Char} {power : Int} (h : Power text power) :
    Stops (fun c => c.isDigit || c = '.') text := by
  cases h with
  | none => exact stops_nil _
  | plain hmark _ _ => obtain rfl | rfl := hmark <;> exact stops_cons.mpr rfl
  | plus hmark _ _ => obtain rfl | rfl := hmark <;> exact stops_cons.mpr rfl
  | minus hmark _ _ => obtain rfl | rfl := hmark <;> exact stops_cons.mpr rfl

theorem unsigned?_point {whole tail : List Char} (hwhole : IsDigits whole) :
    unsigned? (whole ++ '.' :: tail) =
      if whole.isEmpty && (tail.takeWhile Char.isDigit).isEmpty then none
      else some (ofParts whole (tail.takeWhile Char.isDigit)
        (exponentOrZero (tail.dropWhile Char.isDigit)).1,
        (exponentOrZero (tail.dropWhile Char.isDigit)).2) := by
  have htail : Stops Char.isDigit ('.' :: tail) := stops_cons.mpr rfl
  unfold unsigned?
  simp only [takeWhile_append hwhole htail, dropWhile_append hwhole htail]

theorem unsigned?_whole {whole tail : List Char} (hwhole : IsDigits whole)
    (htail : Stops (fun c => c.isDigit || c = '.') tail) :
    unsigned? (whole ++ tail) =
      if whole.isEmpty then none
      else some (ofParts whole [] (exponentOrZero tail).1, (exponentOrZero tail).2) := by
  have hdigit : Stops Char.isDigit tail := htail.mono fun c hc => by simp [hc]
  unfold unsigned?
  simp only [takeWhile_append hwhole hdigit, dropWhile_append hwhole hdigit]
  split
  · next r hpoint =>
    exact absurd (stops_cons.mp htail) (by decide)
  · simp

/-- A numeral is read whole if the text after it cannot continue it. -/
theorem unsigned?_append {text rest : List Char} {d : Decimal} (h : Numeral text d)
    (hrest : Stops continuesNumeral rest) : unsigned? (text ++ rest) = some (d, rest) := by
  obtain ⟨hwhole, hfraction, hpower, hne⟩ := h
  have hplain : Stops (fun c => c.isDigit || c = '.') rest :=
    hrest.mono fun c hc => by simp_all [continuesNumeral]
  have htail := stops_append hpower.stops hplain
  cases hfraction with
  | none =>
    rw [List.append_nil] at hne
    rw [List.append_nil, List.append_assoc, unsigned?_whole hwhole htail,
      exponentOrZero_append hpower hrest, if_neg (by simpa using hne)]
  | point hds =>
    have hdigit := htail.mono (q := Char.isDigit) fun c hc => by simp [hc]
    rw [List.append_assoc, List.append_assoc, List.cons_append, unsigned?_point hwhole,
      takeWhile_append hds hdigit, dropWhile_append hds hdigit, exponentOrZero_append hpower hrest,
      if_neg (by simpa using hne)]

theorem unsigned?_eq_some {s rest : List Char} {d : Decimal} (h : unsigned? s = some (d, rest)) :
    ∃ text, s = text ++ rest ∧ Numeral text d := by
  have hwhole : IsDigits (s.takeWhile Char.isDigit) := fun c hc => List.mem_takeWhile_imp hc
  have hs := eq_takeWhile_append (p := Char.isDigit) (s := s) rfl
  generalize s.takeWhile Char.isDigit = whole at hwhole hs
  have hstop := stops_dropWhile Char.isDigit s
  generalize s.dropWhile Char.isDigit = tail at hs hstop
  subst hs
  by_cases hpoint : ∃ after, tail = '.' :: after
  · obtain ⟨after, rfl⟩ := hpoint
    rw [unsigned?_point hwhole] at h
    split at h
    · cases h
    · next hne =>
      obtain ⟨rfl, rfl⟩ := Prod.mk.inj (Option.some.inj h)
      have hds : IsDigits (after.takeWhile Char.isDigit) := fun c hc => List.mem_takeWhile_imp hc
      obtain ⟨exponent, hexponent, hpower⟩ := exists_power (after.dropWhile Char.isDigit)
      refine ⟨_, ?_, Numeral.mk hwhole (Fraction.point hds) hpower (by simpa using hne)⟩
      rw [List.append_assoc, ← hexponent, List.append_assoc, List.cons_append,
        List.takeWhile_append_dropWhile]
  · have htail : Stops (fun c => c.isDigit || c = '.') tail := by
      cases tail with
      | nil => exact stops_nil _
      | cons c after =>
        have hc : c ≠ '.' := fun h => hpoint ⟨after, h ▸ rfl⟩
        simp [stops_cons, stops_cons.mp hstop, hc]
    rw [unsigned?_whole hwhole htail] at h
    split at h
    · cases h
    · next hne =>
      obtain ⟨rfl, rfl⟩ := Prod.mk.inj (Option.some.inj h)
      obtain ⟨exponent, hexponent, hpower⟩ := exists_power tail
      refine ⟨_, ?_, Numeral.mk hwhole Fraction.none hpower (by simpa using hne)⟩
      rw [List.append_nil, List.append_assoc, ← hexponent]

/-- A numeral starts with a digit or a point. -/
theorem Numeral.head {text : List Char} {d : Decimal} (h : Numeral text d) :
    ∃ c rest, text = c :: rest ∧ (c.isDigit = true ∨ c = '.') := by
  obtain ⟨hwhole, hfraction, hpower, hne⟩ := h
  rename_i whole point fraction exponent power
  cases whole with
  | cons c whole => exact ⟨c, _, rfl, Or.inl (hwhole c List.mem_cons_self)⟩
  | nil =>
    cases hfraction with
    | none => exact absurd rfl hne
    | point hds => exact ⟨'.', _, rfl, Or.inr rfl⟩

theorem Power.mem {text : List Char} {power : Int} (h : Power text power) {c : Char} (hc : c ∈ text) :
    c.isDigit = true ∨ c = 'e' ∨ c = 'E' ∨ c = '+' ∨ c = '-' := by
  cases h with
  | none => cases hc
  | plain hmark hds _ =>
    obtain rfl | hc := List.mem_cons.mp hc
    · exact Or.inr (hmark.imp_right Or.inl)
    · exact Or.inl (hds c hc)
  | plus hmark hds _ =>
    obtain rfl | rfl | hc := by simpa only [List.mem_cons] using hc
    · exact Or.inr (hmark.imp_right Or.inl)
    · simp
    · exact Or.inl (hds c hc)
  | minus hmark hds _ =>
    obtain rfl | rfl | hc := by simpa only [List.mem_cons] using hc
    · exact Or.inr (hmark.imp_right Or.inl)
    · simp
    · exact Or.inl (hds c hc)

theorem Numeral.mem {text : List Char} {d : Decimal} (h : Numeral text d) {c : Char} (hc : c ∈ text) :
    c.isDigit = true ∨ c = '.' ∨ c = 'e' ∨ c = 'E' ∨ c = '+' ∨ c = '-' := by
  obtain ⟨hwhole, hfraction, hpower, -⟩ := h
  rw [List.append_assoc, List.mem_append, List.mem_append] at hc
  obtain hc | hc | hc := hc
  · exact Or.inl (hwhole c hc)
  · cases hfraction with
    | none => cases hc
    | point hds =>
      obtain rfl | hc := List.mem_cons.mp hc
      · simp
      · exact Or.inl (hds c hc)
  · obtain hc | hc := hpower.mem hc
    · exact Or.inl hc
    · exact Or.inr (Or.inr hc)

end AnswerCheck.Decimal
