import AnswerCheck.Proofs.Expr.Derivation
import AnswerCheck.Proofs.Expr.Limits
import AnswerCheck.Proofs.Spelling.Thinning

/-! # Rewriting keeps the limits

A text with fewer blanks or with shorter numbers has no more bytes and no longer runs of signs than
before, and the same parentheses and powers. So it keeps every limit that the text kept before.
-/

set_option autoImplicit false

namespace AnswerCheck.Spelling

open Text Grammar

/-! ## Parentheses -/

/-- The parentheses of a text. -/
def parentheses (s : List Char) : List Char :=
  s.filter fun c => c = '(' || c = ')'

theorem mostOpen_parentheses (opened : Nat) (s : List Char) :
    mostOpen opened (parentheses s) = mostOpen opened s := by
  fun_induction mostOpen opened s with
  | case1 => rfl
  | case2 opened s ih => simpa [parentheses, mostOpen] using ih
  | case3 opened s ih =>
    rw [parentheses, List.filter_cons_of_pos (by decide), mostOpen, ← ih]
    rfl
  | case4 opened c s hopen hclose ih =>
    have hopen : c ≠ '(' := hopen
    have hclose : c ≠ ')' := hclose
    rw [parentheses, List.filter_cons_of_neg (by simp [hopen, hclose])]
    exact ih

/-! ## Runs of signs -/

theorem longestSignRun_mono {signs signs' : Nat} (h : signs ≤ signs') (s : List Char) :
    longestSignRun signs s ≤ longestSignRun signs' s := by
  induction s generalizing signs signs' with
  | nil => exact h
  | cons c s ih =>
    rw [longestSignRun_cons, longestSignRun_cons]
    split
    · exact ih (by omega)
    · split
      · exact ih h
      · omega

/-- No runs of signs of the first text are longer than those of the second one. -/
def Calmer (t s : List Char) : Prop :=
  ∀ signs, longestSignRun signs t ≤ longestSignRun signs s

theorem Calmer.append {t s : List Char} (h : Calmer t s) (u : List Char) : Calmer (u ++ t) (u ++ s) := by
  induction u with
  | nil => exact h
  | cons c u ih =>
    intro signs
    rw [List.cons_append, List.cons_append, longestSignRun_cons, longestSignRun_cons]
    have := ih 0
    split
    · exact ih (signs + 1)
    · split
      · exact ih signs
      · omega

/-- A piece without signs and blanks ends a run. -/
theorem longestSignRun_append {u : List Char} (hne : u ≠ [])
    (hu : ∀ c ∈ u, isSign c = false ∧ isBlank c = false) (signs : Nat) (s : List Char) :
    longestSignRun signs (u ++ s) = max signs (longestSignRun 0 s) := by
  induction u generalizing signs with
  | nil => exact absurd rfl hne
  | cons c u ih =>
    obtain ⟨hsign, hblank⟩ := hu c List.mem_cons_self
    rw [List.cons_append, longestSignRun_cons, hsign, hblank]
    simp only [Bool.false_eq_true, if_false]
    cases u with
    | nil => rfl
    | cons d u =>
      rw [ih (by simp) (fun e he => hu e (List.mem_cons_of_mem c he))]
      omega

/-! ## Sizes -/

/-- The first text is not larger than the second one in anything that is limited. -/
structure Smaller (t s : List Char) : Prop where
  bytes : t.utf8Encode.size ≤ s.utf8Encode.size
  parentheses : parentheses t = parentheses s
  powers : t.count '^' = s.count '^'
  signs {t' s' : List Char} (h : Calmer t' s') : Calmer (t ++ t') (s ++ s')

namespace Smaller

theorem refl (s : List Char) : Smaller s s :=
  ⟨Nat.le_refl _, rfl, rfl, fun h => h.append s⟩

theorem trans {s t u : List Char} (h : Smaller s t) (h' : Smaller t u) : Smaller s u where
  bytes := Nat.le_trans h.bytes h'.bytes
  parentheses := h.parentheses.trans h'.parentheses
  powers := h.powers.trans h'.powers
  signs hr signs := Nat.le_trans (h.signs (fun _ => Nat.le_refl _) signs) (h'.signs hr signs)

theorem append {t t' s s' : List Char} (h : Smaller t s) (h' : Smaller t' s') :
    Smaller (t ++ t') (s ++ s') where
  bytes := by
    have := h.bytes
    have := h'.bytes
    rw [bytes_append, bytes_append]
    omega
  parentheses := by
    have hs := h.parentheses
    have ht := h'.parentheses
    unfold Spelling.parentheses at *
    rw [List.filter_append, List.filter_append, hs, ht]
  powers := by rw [List.count_append, List.count_append, h.powers, h'.powers]
  signs hr := by
    rw [List.append_assoc, List.append_assoc]
    exact h.signs (h'.signs hr)

theorem congruence : Congruence Smaller := ⟨refl, trans, append⟩

end Smaller

theorem parentheses_of_isBlank {c : Char} (h : isBlank c = true) : parentheses [c] = [] := by
  rw [parentheses, List.filter_cons_of_neg, List.filter_nil]
  simp [ne_of_kind h (d := '(') rfl, ne_of_kind h (d := ')') rfl]

theorem longestSignRun_of_isBlank {c : Char} (h : isBlank c = true) (signs : Nat) (s : List Char) :
    longestSignRun signs (c :: s) = longestSignRun signs s := by
  rw [longestSignRun_cons, isSign_of_isBlank h, h]
  rfl

theorem smaller_drop {c : Char} (h : isBlank c = true) : Smaller [] [c] where
  bytes := by simp
  parentheses := (parentheses_of_isBlank h).symm
  powers := by rw [List.count_cons_of_ne (ne_of_kind h (d := '^') rfl)]
  signs hr signs := by
    rw [List.nil_append, List.singleton_append, longestSignRun_of_isBlank h]
    exact hr signs

theorem smaller_space {c : Char} (h : isBlank c = true) : Smaller [' '] [c] where
  bytes := by
    have hone : Char.utf8Size ' ' = 1 := rfl
    have := c.utf8Size_pos
    rw [bytes_singleton, bytes_singleton, hone]
    omega
  parentheses := by
    rw [parentheses_of_isBlank h]
    rfl
  powers := by
    rw [List.count_cons_of_ne (ne_of_kind h (d := '^') rfl)]
    rfl
  signs hr signs := by
    rw [List.singleton_append, List.singleton_append, longestSignRun_of_isBlank h,
      longestSignRun_of_isBlank rfl]
    exact hr signs

theorem Thinned.smaller {t s : List Char} (h : Thinned t s) : Smaller t s := by
  induction h with
  | nil => exact Smaller.refl []
  | keep c _ ih => exact (Smaller.refl [c]).append ih
  | drop hc _ ih => exact (smaller_drop hc).append ih
  | space hc _ ih => exact (smaller_space (isBlank_of_isInlineBlank hc)).append ih

/-! ## Numbers -/

theorem bytes_dropEndWhile (p : Char → Bool) (s : List Char) :
    (dropEndWhile p s).utf8Encode.size ≤ s.utf8Encode.size := by
  obtain ⟨dropped, hs, -⟩ := exists_eq_append_dropEndWhile p s
  have hsize := bytes_append (dropEndWhile p s) dropped
  rw [← hs] at hsize
  omega

theorem mem_of_mem_dropEndWhile {p : Char → Bool} {s : List Char} {c : Char}
    (h : c ∈ dropEndWhile p s) : c ∈ s := by
  obtain ⟨dropped, hs, -⟩ := exists_eq_append_dropEndWhile p s
  rw [hs]
  exact List.mem_append_left dropped h

theorem bytes_shortMantissa (s : List Char) :
    (shortMantissa s).utf8Encode.size ≤ s.utf8Encode.size := by
  unfold shortMantissa
  split
  · exact Nat.le_trans (bytes_dropEndWhile _ _) (bytes_dropEndWhile _ s)
  · exact Nat.le_refl _

theorem mem_of_mem_shortMantissa {s : List Char} {c : Char} (h : c ∈ shortMantissa s) : c ∈ s := by
  unfold shortMantissa at h
  split at h
  · exact mem_of_mem_dropEndWhile (mem_of_mem_dropEndWhile h)
  · exact h

/-- A piece of a number that holds nothing but digits, points and exponent marks. -/
def IsPlain (s : List Char) : Prop :=
  ∀ c ∈ s, c.isDigit = true ∨ c = '.' ∨ c = 'e' ∨ c = 'E'

theorem IsPlain.counts {s : List Char} (h : IsPlain s) :
    (∀ c ∈ s, isSign c = false ∧ isBlank c = false) ∧ parentheses s = [] ∧ s.count '^' = 0 := by
  have hne {c d : Char} (hc : c ∈ s)
      (hd : d.isDigit = false ∧ d ≠ '.' ∧ d ≠ 'e' ∧ d ≠ 'E') : c ≠ d := by
    rintro rfl
    obtain hc | hc | hc | hc := h c hc <;> simp_all
  refine ⟨fun c hc => ⟨?_, ?_⟩, ?_, ?_⟩
  · simp [isSign, hne hc (d := '+') (by decide), hne hc (d := '-') (by decide)]
  · obtain hc | rfl | rfl | rfl := h c hc
    · exact isBlank_of_isDigit hc
    all_goals rfl
  · rw [parentheses, List.filter_eq_nil_iff]
    intro c hc
    simp [hne hc (d := '(') (by decide), hne hc (d := ')') (by decide)]
  · rw [List.count_eq_zero]
    intro hc
    exact hne hc (d := '^') (by decide) rfl

/-- A plain piece for another one that is not shorter. -/
theorem smaller_of_isPlain {t s : List Char} (ht : IsPlain t) (hs : IsPlain s) (hne : t ≠ [])
    (hne' : s ≠ []) (hbytes : t.utf8Encode.size ≤ s.utf8Encode.size) : Smaller t s where
  bytes := hbytes
  parentheses := by rw [ht.counts.2.1, hs.counts.2.1]
  powers := by rw [ht.counts.2.2, hs.counts.2.2]
  signs hr signs := by
    rw [longestSignRun_append hne ht.counts.1, longestSignRun_append hne' hs.counts.1]
    have := hr 0
    omega

theorem smaller_plus : Smaller [] ['+'] where
  bytes := by decide
  parentheses := rfl
  powers := rfl
  signs {t' s'} hr signs := Nat.le_trans (hr signs) (longestSignRun_mono (Nat.le_succ signs) s')

theorem smaller_scientific : Rewrites Smaller scientific? := by
  intro s out rest h
  obtain ⟨sign, mantissa, mark, powerSign, power, hs, hmark, hmantissa, -, rfl⟩ := scientific?_eq_some h
  have hmark' : IsPlain [mark] := by
    intro c hc
    obtain rfl := List.mem_singleton.mp hc
    obtain rfl | rfl := hmark <;> simp
  have hplain : IsPlain mantissa := fun c hc => (hmantissa c hc).imp_right Or.inl
  have hbefore : IsPlain (mantissa ++ [mark]) := by
    intro c hc
    obtain hc | hc := List.mem_append.mp hc
    · exact hplain c hc
    · exact hmark' c hc
  have hafter : IsPlain (shortMantissa mantissa ++ ['E']) := by
    intro c hc
    obtain hc | hc := List.mem_append.mp hc
    · exact hplain c (mem_of_mem_shortMantissa hc)
    · simp_all
  have hnumber : Smaller (shortMantissa mantissa ++ ['E']) (mantissa ++ [mark]) := by
    refine smaller_of_isPlain hafter hbefore (by simp) (by simp) ?_
    have := bytes_shortMantissa mantissa
    have hone : Char.utf8Size 'E' = 1 := rfl
    have := mark.utf8Size_pos
    rw [bytes_append, bytes_append, bytes_singleton, bytes_singleton, hone]
    omega
  have hsign : Smaller (if powerSign = ['+'] then [] else powerSign) powerSign := by
    split
    · next hplus =>
      rw [hplus]
      exact smaller_plus
    · exact Smaller.refl _
  refine ⟨sign ++ (mantissa ++ [mark]) ++ powerSign ++ power, by simp, by rw [hs]; simp, ?_⟩
  have h := (((Smaller.refl sign).append hnumber).append hsign).append (Smaller.refl power)
  rwa [← List.append_assoc sign (shortMantissa mantissa)] at h

theorem tidyScientific_smaller (s : List Char) : Smaller (tidyScientific s) s :=
  Smaller.congruence.replaceAll smaller_scientific s

/-! ## Limits -/

theorem Smaller.withinLimits {t s : List Char} (h : Smaller t s) (hs : WithinLimits s) (hne : t ≠ []) :
    WithinLimits t where
  nonempty := hne
  bytes := Nat.le_trans h.bytes hs.bytes
  opened := by
    rw [← mostOpen_le_iff, ← mostOpen_parentheses, h.parentheses, mostOpen_parentheses,
      mostOpen_le_iff]
    exact hs.opened
  signs := by
    have := h.signs (fun _ => Nat.le_refl _ : Calmer [] []) 0
    rw [List.append_nil, List.append_nil] at this
    exact longestSignRun_zero_le_iff.mp (Nat.le_trans this (longestSignRun_zero_le_iff.mpr hs.signs))
  powers := by
    rw [h.powers]
    exact hs.powers

end AnswerCheck.Spelling
