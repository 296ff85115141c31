import AnswerCheck.Proofs.Spelling.Rules

/-! # Texts with fewer blanks

Tidying roots and blanks takes blanks away or writes a space for one, and does nothing else.
-/

set_option autoImplicit false

namespace AnswerCheck.Spelling

open Text

/-- `Thinned t s`: the text `t` is `s` without some of its blanks, and with spaces for others. -/
inductive Thinned : List Char → List Char → Prop
  | nil : Thinned [] []
  | keep (c : Char) {t s : List Char} (h : Thinned t s) : Thinned (c :: t) (c :: s)
  | drop {c : Char} {t s : List Char} (hc : isBlank c = true) (h : Thinned t s) : Thinned t (c :: s)
  | space {c : Char} {t s : List Char} (hc : isInlineBlank c = true) (h : Thinned t s) :
      Thinned (' ' :: t) (c :: s)

namespace Thinned

theorem refl (s : List Char) : Thinned s s := by
  induction s with
  | nil => exact nil
  | cons c s ih => exact keep c ih

theorem append {t t' s s' : List Char} (h : Thinned t s) (h' : Thinned t' s') :
    Thinned (t ++ t') (s ++ s') := by
  induction h with
  | nil => exact h'
  | keep c _ ih => exact keep c ih
  | drop hc _ ih => exact drop hc ih
  | space hc _ ih => exact space hc ih

theorem trans {s t u : List Char} (h : Thinned s t) (h' : Thinned t u) : Thinned s u := by
  induction h' generalizing s with
  | nil => exact h
  | keep c _ ih =>
    cases h with
    | keep _ h => exact keep c (ih h)
    | drop hc h => exact drop hc (ih h)
    | space hc h => exact space hc (ih h)
  | drop hc _ ih => exact drop hc (ih h)
  | space hc _ ih =>
    cases h with
    | keep _ h => exact space hc (ih h)
    | drop _ h => exact drop (isBlank_of_isInlineBlank hc) (ih h)
    | space _ h => exact space hc (ih h)

theorem congruence : Congruence Thinned := ⟨refl, trans, append⟩

theorem of_blanks {s : List Char} (h : ∀ c ∈ s, isBlank c = true) : Thinned [] s := by
  induction s with
  | nil => exact nil
  | cons c s ih =>
    exact drop (h c List.mem_cons_self) (ih fun d hd => h d (List.mem_cons_of_mem c hd))

/-- A text splits where the text that it was thinned from splits. -/
theorem of_append {t s s' : List Char} (h : Thinned t (s ++ s')) :
    ∃ u u', t = u ++ u' ∧ Thinned u s ∧ Thinned u' s' := by
  induction s generalizing t with
  | nil => exact ⟨[], t, rfl, nil, h⟩
  | cons c s ih =>
    rw [List.cons_append] at h
    cases h with
    | keep _ h =>
      obtain ⟨u, u', rfl, hu, hu'⟩ := ih h
      exact ⟨c :: u, u', rfl, keep c hu, hu'⟩
    | drop hc h =>
      obtain ⟨u, u', rfl, hu, hu'⟩ := ih h
      exact ⟨u, u', rfl, drop hc hu, hu'⟩
    | space hc h =>
      obtain ⟨u, u', rfl, hu, hu'⟩ := ih h
      exact ⟨' ' :: u, u', rfl, space hc hu, hu'⟩

theorem blanks {t s : List Char} (h : Thinned t s) {blank : Char → Bool} (hspace : blank ' ' = true)
    (hs : ∀ c ∈ s, blank c = true) : ∀ c ∈ t, blank c = true := by
  induction h with
  | nil => exact hs
  | keep c _ ih =>
    intro d hd
    obtain rfl | hd := List.mem_cons.mp hd
    · exact hs d List.mem_cons_self
    · exact ih (fun d hd => hs d (List.mem_cons_of_mem c hd)) d hd
  | drop _ _ ih => exact ih fun d hd => hs d (List.mem_cons_of_mem _ hd)
  | space _ _ ih =>
    intro d hd
    obtain rfl | hd := List.mem_cons.mp hd
    · exact hspace
    · exact ih (fun d hd => hs d (List.mem_cons_of_mem _ hd)) d hd

/-- A text without blanks stays as it is. -/
theorem eq_of_no_blanks {t s : List Char} (h : Thinned t s) (hs : ∀ c ∈ s, isBlank c = false) :
    t = s := by
  induction h with
  | nil => rfl
  | keep c _ ih => rw [ih fun d hd => hs d (List.mem_cons_of_mem c hd)]
  | drop hc _ _ =>
    rw [hs _ List.mem_cons_self] at hc
    cases hc
  | space hc _ _ =>
    have hblank := isBlank_of_isInlineBlank hc
    rw [hs _ List.mem_cons_self] at hblank
    cases hblank

end Thinned

/-! ## The stages for roots and blanks -/

theorem trim_thinned (s : List Char) : Thinned (trim s) s := by
  obtain ⟨left, right, hs, hleft, hright⟩ := exists_eq_append_trim s
  have h := ((Thinned.of_blanks hleft).append (Thinned.refl (trim s))).append (Thinned.of_blanks hright)
  rwa [List.nil_append, List.append_nil, ← hs] at h

theorem thinned_looseRoot : Rewrites Thinned looseRoot? := by
  intro s out rest h
  obtain ⟨gap, radicand, hs, hgap, rfl⟩ := looseRoot?_eq_some h
  refine ⟨"sqrt".toList ++ gap ++ ['('] ++ radicand ++ [')'], by simp, hs, ?_⟩
  have hroot := (Thinned.refl "sqrt".toList).append (Thinned.of_blanks hgap)
  rw [List.append_nil] at hroot
  exact ((hroot.append (Thinned.refl _)).append (trim_thinned radicand)).append (Thinned.refl _)

theorem tidyRoots_thinned (s : List Char) : Thinned (tidyRoots s) s :=
  Thinned.congruence.replaceAll thinned_looseRoot s

theorem thinned_blankRun : Rewrites Thinned blankRun? := by
  intro s out rest h
  obtain ⟨run, hs, rfl, hne, hall, -⟩ := blankRun?_eq_some h
  refine ⟨run, hne, hs, ?_⟩
  cases run with
  | nil => exact absurd rfl hne
  | cons c run =>
    refine Thinned.space (hall c List.mem_cons_self) ?_
    exact Thinned.of_blanks fun d hd => isBlank_of_isInlineBlank (hall d (List.mem_cons_of_mem c hd))

theorem thinned_spaceAtEnd : Rewrites Thinned spaceAtEnd? := by
  intro s out rest h
  obtain ⟨hs, rfl⟩ := spaceAtEnd?_eq_some h
  exact ⟨[' ', '\n'], by simp, hs, Thinned.drop rfl (Thinned.refl _)⟩

theorem tidyBlanks_thinned (s : List Char) : Thinned (tidyBlanks s) s :=
  (trim_thinned _).trans ((Thinned.congruence.replaceAll thinned_spaceAtEnd _).trans
    (Thinned.congruence.replaceAll thinned_blankRun s))

end AnswerCheck.Spelling
