import AnswerCheck.Proofs.Text.Digits
import AnswerCheck.Proofs.Text.Replacing
import AnswerCheck.Spelling.Ascii

/-! # What the rules of a pass read and write

The rules for delimiters, commands, blanks, roots, powers and numbers as facts about the piece of text that they
take and the piece that they write.
-/

set_option autoImplicit false

namespace AnswerCheck.Spelling

open Text

/-! ## Blanks -/

theorem symbolSpelling?_of_isBlank {c : Char} (h : isBlank c = true) : symbolSpelling? c = none := by
  unfold symbolSpelling?
  split <;> first | rfl | exact absurd h (by decide)

theorem superscriptSpelling?_of_isBlank {c : Char} (h : isBlank c = true) :
    superscriptSpelling? c = none := by
  unfold superscriptSpelling?
  split <;> first | rfl | exact absurd h (by decide)

theorem not_mem_of_blanks {gap : List Char} (h : ∀ c ∈ gap, isBlank c = true) {d : Char}
    (hd : isBlank d = false) : d ∉ gap :=
  fun hmem => ne_of_kind (h d hmem) hd rfl

theorem isBlank_of_isInlineBlank {c : Char} (h : isInlineBlank c = true) : isBlank c = true := by
  simp only [isInlineBlank, Bool.and_eq_true] at h
  exact h.1.1

theorem blankRun?_eq_some {s out rest : List Char} (h : blankRun? s = some (out, rest)) :
    ∃ run, s = run ++ rest ∧ out = [' '] ∧ run ≠ [] ∧ (∀ c ∈ run, isInlineBlank c = true) ∧
      Stops isInlineBlank rest := by
  obtain ⟨⟨run, rest'⟩, hrun, heq⟩ := Option.map_eq_some_iff.mp h
  obtain ⟨rfl, rfl⟩ := Prod.mk.inj heq
  obtain ⟨hs, hne, hall, hstop⟩ := run?_eq_some hrun
  exact ⟨run, hs, rfl, hne, hall, hstop⟩

theorem spaceAtEnd?_eq_some {s out rest : List Char} (h : spaceAtEnd? s = some (out, rest)) :
    s = ' ' :: '\n' :: rest ∧ out = ['\n'] := by
  unfold spaceAtEnd? at h
  split at h
  · obtain ⟨rfl, rfl⟩ := Prod.mk.inj (Option.some.inj h)
    exact ⟨rfl, rfl⟩
  · cases h

/-! ## Delimiters -/

theorem upToPair?_eq_some {s inside rest : List Char} (h : upToPair? s = some (inside, rest)) :
    s = inside ++ '$' :: '$' :: rest := by
  fun_induction upToPair? s generalizing inside with
  | case1 => cases h
  | case2 tail =>
    obtain ⟨rfl, rfl⟩ := Prod.mk.inj (Option.some.inj h)
    rfl
  | case3 c s _ ih =>
    obtain ⟨⟨inside', rest'⟩, hfound, heq⟩ := Option.map_eq_some_iff.mp h
    obtain ⟨rfl, rfl⟩ := Prod.mk.inj heq
    rw [ih hfound, List.cons_append]

theorem displayed?_eq_some {s out rest : List Char} (h : displayed? s = some (out, rest)) :
    s = '$' :: '$' :: (out ++ '$' :: '$' :: rest) := by
  unfold displayed? at h
  split at h
  · rw [upToPair?_eq_some h]
  · cases h

theorem inlined?_eq_some {s out rest : List Char} (h : inlined? s = some (out, rest)) :
    s = '$' :: (out ++ '$' :: rest) := by
  unfold inlined? at h
  split at h
  · split at h
    · next inside rest' hrun =>
      obtain ⟨rfl, rfl⟩ := Prod.mk.inj (Option.some.inj h)
      rw [(run?_eq_some hrun).1]
    · cases h
  · cases h

theorem bracket?_eq_some {s out rest : List Char} (h : bracket? s = some (out, rest)) :
    ∃ c, (c = '[' ∨ c = ']' ∨ c = '(' ∨ c = ')') ∧ s = '\\' :: c :: rest ∧ out = [] := by
  unfold bracket? at h
  split at h
  · next c rest' =>
    split at h
    · next hc =>
      obtain ⟨rfl, rfl⟩ := Prod.mk.inj (Option.some.inj h)
      exact ⟨c, by simpa [or_assoc] using hc, rfl, rfl⟩
    · cases h
  · cases h

/-! ## Commands -/

theorem argument?_eq_some {s argument rest : List Char} (h : argument? s = some (argument, rest)) :
    ∃ gap, s = gap ++ ['\x7b'] ++ argument ++ ['\x7d'] ++ rest := by
  unfold argument? at h
  split at h
  · next inside hopen =>
    split at h
    · next argument' rest' hrun =>
      obtain ⟨rfl, rfl⟩ := Prod.mk.inj (Option.some.inj h)
      exact ⟨s.takeWhile isBlank,
        (eq_takeWhile_append hopen).trans (by simp [(run?_eq_some hrun).1])⟩
    · cases h
  · cases h

theorem fraction?_eq_some {s out rest : List Char} (h : fraction? s = some (out, rest)) :
    ∃ gap numerator gap' denominator,
      s = "\\frac".toList ++ (gap ++ ['\x7b'] ++ numerator ++ ['\x7d']) ++
        (gap' ++ ['\x7b'] ++ denominator ++ ['\x7d']) ++ rest ∧
      out = '(' :: numerator ++ [')', '/', '('] ++ denominator ++ [')'] := by
  simp only [fraction?, Option.bind_eq_bind, Option.bind_eq_some_iff, Prod.exists] at h
  obtain ⟨s₁, hword, numerator, s₂, hnumerator, denominator, s₃, hdenominator, hout⟩ := h
  obtain ⟨rfl, rfl⟩ := Prod.mk.inj (Option.some.inj hout)
  obtain ⟨gap', rfl⟩ := argument?_eq_some hdenominator
  obtain ⟨gap, rfl⟩ := argument?_eq_some hnumerator
  obtain rfl := after?_eq_some.mp hword
  exact ⟨gap, numerator, gap', denominator, by simp, rfl⟩

theorem radical?_eq_some {s out rest : List Char} (h : radical? s = some (out, rest)) :
    ∃ gap radicand, s = "\\sqrt".toList ++ (gap ++ ['\x7b'] ++ radicand ++ ['\x7d']) ++ rest ∧
      out = "sqrt(".toList ++ radicand ++ [')'] := by
  simp only [radical?, Option.bind_eq_bind, Option.bind_eq_some_iff, Prod.exists] at h
  obtain ⟨s₁, hword, radicand, s₂, hradicand, hout⟩ := h
  obtain ⟨rfl, rfl⟩ := Prod.mk.inj (Option.some.inj hout)
  obtain ⟨gap, rfl⟩ := argument?_eq_some hradicand
  obtain rfl := after?_eq_some.mp hword
  exact ⟨gap, radicand, by simp, rfl⟩

/-! ## Roots -/

theorem looseRoot?_eq_some {s out rest : List Char} (h : looseRoot? s = some (out, rest)) :
    ∃ gap radicand, s = "sqrt".toList ++ gap ++ ['('] ++ radicand ++ [')'] ++ rest ∧
      (∀ c ∈ gap, isBlank c = true) ∧ out = "sqrt".toList ++ ['('] ++ trim radicand ++ [')'] := by
  simp only [looseRoot?, Option.bind_eq_bind, Option.bind_eq_some_iff] at h
  obtain ⟨s₁, hword, h⟩ := h
  obtain rfl := after?_eq_some.mp hword
  split at h
  · next inside hopen =>
    split at h
    · next radicand rest' hrun =>
      obtain ⟨rfl, rfl⟩ := Prod.mk.inj (Option.some.inj h)
      refine ⟨s₁.takeWhile isBlank, radicand, ?_, fun c => List.mem_takeWhile_imp, ?_⟩
      · exact (congrArg ("sqrt".toList ++ ·) (eq_takeWhile_append hopen)).trans
          (by simp [(run?_eq_some hrun).1])
      · rw [(by decide : "sqrt(".toList = "sqrt".toList ++ ['('])]
    · cases h
  · cases h

/-! ## Powers -/

theorem exponentStart?_eq_some {accepts : Char → Bool} {s start rest : List Char}
    (h : exponentStart? accepts s = some (start, rest)) : s = start ++ rest ∧ start ≠ [] := by
  unfold exponentStart? at h
  split at h
  · cases h
  · split at h
    · next c s hc =>
      split at h
      · split at h
        · obtain ⟨rfl, rfl⟩ := Prod.mk.inj (Option.some.inj h)
          exact ⟨rfl, List.cons_ne_nil _ _⟩
        · cases h
      · cases h
    · split at h
      · obtain ⟨rfl, rfl⟩ := Prod.mk.inj (Option.some.inj h)
        exact ⟨rfl, List.cons_ne_nil _ _⟩
      · cases h

/-- A power with two stars: what is read and what is written. -/
theorem starred?_eq_some {base gap exponent : Char → Bool} {s out rest : List Char}
    (h : starred? base gap exponent s = some (out, rest)) :
    ∃ c left right start, s = c :: (left ++ '*' :: '*' :: (right ++ (start ++ rest))) ∧
      (∀ d ∈ left, gap d = true) ∧ (∀ d ∈ right, gap d = true) ∧ start ≠ [] ∧ out = c :: '^' :: start := by
  cases s with
  | nil => cases h
  | cons c s =>
    rw [starred?] at h
    split at h
    · split at h
      · next s₁ hstars =>
        obtain ⟨⟨start, rest'⟩, hstart, heq⟩ := Option.map_eq_some_iff.mp h
        obtain ⟨rfl, rfl⟩ := Prod.mk.inj heq
        obtain ⟨hs₁, hne⟩ := exponentStart?_eq_some hstart
        refine ⟨c, s.takeWhile gap, s₁.takeWhile gap, start, congrArg _ ?_, fun d => List.mem_takeWhile_imp,
          fun d => List.mem_takeWhile_imp, hne, rfl⟩
        rw [← hs₁, List.takeWhile_append_dropWhile, ← hstars, List.takeWhile_append_dropWhile]
      · cases h
    · cases h

/-! ## Numbers -/

theorem signText_append (signs s : List Char) : (signText signs s).1 ++ (signText signs s).2 = s := by
  unfold signText
  split
  · split <;> rfl
  · rfl

theorem mem_signText {signs s : List Char} {c : Char} (h : c ∈ (signText signs s).1) : c ∈ signs := by
  unfold signText at h
  split at h
  · split at h
    · next hsign =>
      obtain rfl := List.mem_singleton.mp h
      exact List.contains_iff_mem.mp hsign
    · cases h
  · cases h

theorem mantissaText?_eq_some {s mantissa rest : List Char}
    (h : mantissaText? s = some (mantissa, rest)) :
    s = mantissa ++ rest ∧ mantissa ≠ [] ∧ ∀ c ∈ mantissa, c.isDigit = true ∨ c = '.' := by
  simp only [mantissaText?, Option.bind_eq_bind, Option.bind_eq_some_iff, Prod.exists] at h
  obtain ⟨whole, rest', hwhole, h⟩ := h
  obtain ⟨rfl, hne, hdigits, -⟩ := run?_eq_some hwhole
  have hplain : ∀ c ∈ whole, c.isDigit = true ∨ c = '.' := fun c hc => Or.inl (hdigits c hc)
  split at h
  · split at h
    · next hfraction =>
      obtain ⟨rfl, rfl⟩ := Prod.mk.inj (Option.some.inj h)
      obtain ⟨hafter, -, hdigits', -⟩ := run?_eq_some hfraction
      refine ⟨by simp [hafter], by simp, fun c hc => ?_⟩
      obtain hc | hc := List.mem_append.mp hc
      · exact hplain c hc
      · obtain rfl | hc := List.mem_cons.mp hc
        · exact Or.inr rfl
        · exact Or.inl (hdigits' c hc)
    · obtain ⟨rfl, rfl⟩ := Prod.mk.inj (Option.some.inj h)
      exact ⟨rfl, hne, hplain⟩
  · obtain ⟨rfl, rfl⟩ := Prod.mk.inj (Option.some.inj h)
    exact ⟨rfl, hne, hplain⟩

/-- A number with an exponent: what is read and what is written. -/
theorem scientific?_eq_some {s out rest : List Char} (h : scientific? s = some (out, rest)) :
    ∃ sign mantissa mark powerSign power,
      s = sign ++ mantissa ++ [mark] ++ powerSign ++ power ++ rest ∧ (mark = 'e' ∨ mark = 'E') ∧
      (∀ c ∈ mantissa, c.isDigit = true ∨ c = '.') ∧
      (∀ c ∈ sign ++ powerSign ++ power, c.isDigit = true ∨ c = '+' ∨ c = '-') ∧
      out = sign ++ shortMantissa mantissa ++ ['E'] ++
        (if powerSign = ['+'] then [] else powerSign) ++ power := by
  simp only [scientific?, Option.bind_eq_bind, Option.bind_eq_some_iff, Prod.exists] at h
  obtain ⟨mantissa, s₁, hmantissa, h⟩ := h
  split at h
  · next mark s₂ =>
    split at h
    · next hmark =>
      obtain ⟨⟨power, rest'⟩, hpower, heq⟩ := Option.bind_eq_some_iff.mp h
      obtain ⟨rfl, rfl⟩ := Prod.mk.inj (Option.some.inj heq)
      have hs := signText_append ['-'] s
      have hs₂ := signText_append ['+', '-'] s₂
      obtain ⟨hrest, -, hdigits, -⟩ := run?_eq_some hpower
      rw [hrest] at hs₂
      rw [(mantissaText?_eq_some hmantissa).1, ← hs₂] at hs
      refine ⟨(signText ['-'] s).1, mantissa, mark, (signText ['+', '-'] s₂).1, power,
        hs.symm.trans (by simp), by simpa using hmark, (mantissaText?_eq_some hmantissa).2.2, ?_, by simp⟩
      intro c hc
      rw [List.mem_append, List.mem_append] at hc
      obtain (hc | hc) | hc := hc
      · exact Or.inr (Or.inr (List.mem_singleton.mp (mem_signText hc)))
      · exact Or.inr (by simpa using mem_signText hc)
      · exact Or.inl (hdigits c hc)
    · cases h
  · cases h

end AnswerCheck.Spelling
