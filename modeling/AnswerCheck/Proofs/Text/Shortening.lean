import AnswerCheck.Proofs.Text.Replacing

/-! # Rules that make texts shorter

A step that shortens every text it changes is repeated until it changes nothing: the text itself has
rounds enough. If the step replaces the matches of a rule that shortens, then the rule reads nothing
in what is left.
-/

set_option autoImplicit false

namespace AnswerCheck.Text

variable {rule : Recognizer (List Char)} {step : List Char → List Char} {s t u : List Char}

/-- The text is the same or has fewer characters. -/
def ShorterOrSame (t s : List Char) : Prop :=
  t = s ∨ t.length < s.length

theorem congruence_shorterOrSame : Congruence ShorterOrSame where
  refl s := Or.inl rfl
  trans {s t u} hst htu := by
    obtain rfl | hst := hst
    · exact htu
    · obtain rfl | htu := htu
      · exact Or.inr hst
      · exact Or.inr (hst.trans htu)
  append {s s' t t'} hs ht := by
    obtain rfl | hs := hs
    · obtain rfl | ht := ht
      · exact Or.inl rfl
      · refine Or.inr ?_
        simp only [List.length_append]
        omega
    · refine Or.inr ?_
      obtain rfl | ht := ht
      · simp only [List.length_append]
        omega
      · simp only [List.length_append]
        omega

/-- What the rule writes has fewer characters than what it takes. -/
def Shortens (rule : Recognizer (List Char)) : Prop :=
  Rewrites (fun t s => t.length < s.length) rule

theorem Shortens.replaceAll (h : Shortens rule) (s : List Char) :
    ShorterOrSame (replaceAll rule s) s := by
  refine congruence_shorterOrSame.replaceAll (fun s out rest hrule => ?_) s
  obtain ⟨used, hne, hs, hlength⟩ := h s out rest hrule
  exact ⟨used, hne, hs, Or.inr hlength⟩

/-! ## What is left -/

theorem Shortens.length_lt (h : Shortens rule) (ht : t <:+ s) (hrule : rule t ≠ none) (hne : t ≠ []) :
    (Text.replaceAll rule s).length < s.length := by
  induction s with
  | nil => exact absurd (List.suffix_nil.mp ht) hne
  | cons c s ih =>
    cases hmatch : rule (c :: s) with
    | none =>
      obtain rfl | ht := List.suffix_cons_iff.mp ht
      · exact absurd hmatch hrule
      · rw [replaceAll_cons_none hmatch]
        exact Nat.succ_lt_succ (ih ht)
    | some found =>
      obtain ⟨out, rest⟩ := found
      obtain ⟨used, hused, heq, hlength⟩ := h _ _ _ hmatch
      have hrest : (Text.replaceAll rule rest).length ≤ rest.length := by
        obtain hsame | hlt := h.replaceAll rest
        · rw [hsame]
        · exact Nat.le_of_lt hlt
      rw [heq] at hmatch ⊢
      rw [replaceAll_append_some hused hmatch, List.length_append, List.length_append]
      omega

/-- In a text that the rule does not change it reads nothing. -/
theorem Shortens.eq_none (h : Shortens rule) (hs : Text.replaceAll rule s = s) (ht : t <:+ s) (hne : t ≠ []) :
    rule t = none := by
  by_contra hrule
  have hlength := h.length_lt ht hrule hne
  rw [hs] at hlength
  omega

theorem ShorterOrSame.eq_of_trans (hst : ShorterOrSame s t) (hts : ShorterOrSame t s) : s = t := by
  obtain hsame | hlt := hst
  · exact hsame
  · obtain hsame | hlt' := hts
    · exact hsame.symm
    · omega

/-! ## Until nothing changes -/

/-- Repeating the step as long as it changes the text ends, and `t` is what is left then. -/
inductive RepeatsTo (step : List Char → List Char) : List Char → List Char → Prop where
  | stop {s : List Char} (h : step s = s) : RepeatsTo step s s
  | round {s t : List Char} (h : step s ≠ s) (hmore : RepeatsTo step (step s) t) : RepeatsTo step s t

namespace RepeatsTo

theorem fixed (h : RepeatsTo step s t) : step t = t := by
  induction h with
  | stop h => exact h
  | round _ _ ih => exact ih

theorem unique (h : RepeatsTo step s t) (h' : RepeatsTo step s u) : t = u := by
  induction h with
  | stop hsame =>
    cases h' with
    | stop _ => rfl
    | round hchange _ => exact absurd hsame hchange
  | round hchange _ ih =>
    cases h' with
    | stop hsame => exact absurd hsame hchange
    | round _ hmore => exact ih hmore

end RepeatsTo

theorem repeatsTo_settleWithin (h : ∀ s, ShorterOrSame (step s) s) {rounds : Nat} (hs : s.length ≤ rounds) :
    RepeatsTo step s (settleWithin step rounds s) := by
  induction rounds generalizing s with
  | zero =>
    obtain rfl := List.length_eq_zero_iff.mp (Nat.le_zero.mp hs)
    obtain hsame | hlt := h []
    · exact .stop hsame
    · cases hlt
  | succ rounds ih =>
    rw [settleWithin]
    split
    · next hsame => exact .stop hsame
    · next hchange =>
      have hlt := (h s).resolve_left hchange
      exact .round hchange (ih (by omega))

/-- A step that shortens what it changes is repeated until it changes nothing. -/
theorem repeatsTo_settle_iff (h : ∀ s, ShorterOrSame (step s) s) :
    RepeatsTo step s t ↔ t = settle List.length step s := by
  have hends : RepeatsTo step s (settle List.length step s) := repeatsTo_settleWithin h (Nat.le_refl _)
  constructor
  · intro ht
    exact ht.unique hends
  · rintro rfl
    exact hends

theorem settle_fixed (h : ∀ s, ShorterOrSame (step s) s) (s : List Char) :
    step (settle List.length step s) = settle List.length step s :=
  ((repeatsTo_settle_iff h).mpr rfl).fixed

end AnswerCheck.Text
