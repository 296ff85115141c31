import AnswerCheck.Answer.Root
import AnswerCheck.Proofs.Decimal.ZeroSigns
import AnswerCheck.Proofs.Search.FoundRoots
import Mathlib

/-! # Listing values as roots

Values are sorted, repeated ones are dropped, and of those that are shown the same only the first is
listed. So a list of roots invents nothing and shows every text that it should.
-/

set_option autoImplicit false

namespace AnswerCheck.Answer

open Search Binary64

/-! ## Texts -/

theorem mem_addShown {roots : List Root} {r s : Root} (h : s ∈ addShown roots r) :
    s ∈ roots ∨ s = r := by
  rw [addShown] at h
  split at h
  · exact Or.inl h
  · rwa [List.mem_append, List.mem_singleton] at h

theorem addShown_ne_nil (roots : List Root) (r : Root) : addShown roots r ≠ [] := by
  rw [addShown]
  split
  · next hany =>
    obtain ⟨s, hs, -⟩ := List.any_eq_true.mp hany
    exact List.ne_nil_of_mem hs
  · simp

theorem subset_addShown (roots : List Root) (r : Root) : roots ⊆ addShown roots r := by
  intro s hs
  rw [addShown]
  split
  · exact hs
  · exact List.mem_append_left [r] hs

theorem exists_shown {roots known : List Root} {r : Root} (hr : r ∈ roots) :
    ∃ s ∈ roots.foldl addShown known, s.shown = r.shown := by
  refine exists_mem_foldl_of_step (fun s r => s.shown = r.shown) hr (fun known => ?_)
    subset_addShown
  rw [addShown]
  split
  · next hany =>
    obtain ⟨s, hs, hbeq⟩ := List.any_eq_true.mp hany
    exact ⟨s, hs, eq_of_beq hbeq⟩
  · exact ⟨r, by simp, rfl⟩

theorem shownTexts_of_ascending {roots : List Root} (h : roots.Pairwise (rank ·.bits ≤ rank ·.bits)) :
    shownTexts roots = (roots.foldl addShown []).map (·.shown) := by
  rw [shownTexts, List.mergeSort_of_pairwise (h.imp decide_eq_true)]

/-- The texts that the line of the final answer states are those of the roots. -/
theorem mem_shownTexts {roots : List Root} {t : String} :
    t ∈ shownTexts roots ↔ ∃ r ∈ roots, r.shown = t := by
  rw [shownTexts, List.mem_map]
  constructor
  · rintro ⟨s, hs, rfl⟩
    obtain hs | ⟨r, hr, rfl⟩ := mem_foldl_of_step hs fun _ _ _ => mem_addShown
    · cases hs
    · exact ⟨s, List.mem_mergeSort.mp hr, rfl⟩
  · rintro ⟨r, hr, rfl⟩
    exact exists_shown (List.mem_mergeSort.mpr hr)

/-! ## Values -/

section Repeated

variable {α : Type}

theorem eraseRepsBy_loop (r : α → α → Bool) (a : α) (as kept : List α) :
    List.eraseRepsBy.loop r a as kept = kept.reverse ++ List.eraseRepsBy.loop r a as [] := by
  induction as generalizing a kept with
  | nil => simp [List.eraseRepsBy.loop]
  | cons b as ih =>
    rw [List.eraseRepsBy.loop, List.eraseRepsBy.loop]
    cases r a b with
    | true => exact ih a kept
    | false =>
      simp only
      rw [ih b (a :: kept), ih b [a], List.reverse_cons, List.append_assoc]
      rfl

variable [BEq α]

theorem eraseReps_cons_cons (a b : α) (as : List α) :
    (a :: b :: as).eraseReps = if a == b then (a :: as).eraseReps else a :: (b :: as).eraseReps := by
  change List.eraseRepsBy.loop (· == ·) a (b :: as) [] = _
  rw [List.eraseRepsBy.loop]
  cases a == b with
  | true => rfl
  | false => exact eraseRepsBy_loop _ b as [a]

theorem eraseReps_sublist (as : List α) : as.eraseReps.Sublist as := by
  cases as with
  | nil => exact List.Sublist.refl _
  | cons a as =>
    induction as generalizing a with
    | nil => exact List.Sublist.refl _
    | cons b as ih =>
      rw [eraseReps_cons_cons]
      split
      · exact (ih a).trans ((List.sublist_cons_self b as).cons_cons a)
      · exact (ih b).cons_cons a

theorem eraseReps_cons_ne_nil (a : α) (as : List α) : (a :: as).eraseReps ≠ [] := by
  induction as generalizing a with
  | nil => exact List.cons_ne_nil a []
  | cons b as ih =>
    rw [eraseReps_cons_cons]
    split
    · exact ih a
    · exact List.cons_ne_nil a _

end Repeated

theorem value_mem_of_mem_rootsOf {values : List Float} {places : Option Nat} {r : Root}
    (h : r ∈ rootsOf values places) : r.value ∈ values := by
  obtain h | ⟨s, hs, rfl⟩ := mem_foldl_of_step h fun _ _ _ => mem_addShown
  · cases h
  · obtain ⟨v, hv, rfl⟩ := List.mem_map.mp hs
    rw [Root.value, Float.ofBits_toBits]
    exact List.mem_mergeSort.mp ((eraseReps_sublist _).subset hv)

/-- A value that is dropped equals one that stays. -/
theorem exists_mem_eraseReps {v : Float} {vs : List Float} (hv : v ∈ vs) (hnan : v ≠ .nan) :
    ∃ w ∈ vs.eraseReps, (w == v) = true := by
  cases vs with
  | nil => cases hv
  | cons first vs =>
    induction vs generalizing first v with
    | nil =>
      obtain rfl := List.mem_singleton.mp hv
      exact ⟨v, List.mem_cons_self, Float.beq_self_iff.mpr hnan⟩
    | cons second vs ih =>
      rw [eraseReps_cons_cons]
      split
      · next heq =>
        obtain rfl | hv := List.mem_cons.mp hv
        · exact ih hnan v List.mem_cons_self
        · obtain rfl | hv := List.mem_cons.mp hv
          · -- What is dropped equals the one before it, which may be dropped itself.
            have hfirst : first ≠ .nan := (Float.beq_iff_ne_nan_and_eq.mp heq).1
            obtain ⟨w, hw, hwfirst⟩ := ih hfirst first List.mem_cons_self
            exact ⟨w, hw, beq_trans hwfirst heq⟩
          · exact ih hnan first (List.mem_cons_of_mem first hv)
      · obtain rfl | hv := List.mem_cons.mp hv
        · exact ⟨v, List.mem_cons_self, Float.beq_self_iff.mpr hnan⟩
        · obtain ⟨w, hw, heq⟩ := ih hnan second hv
          exact ⟨w, List.mem_cons_of_mem first hw, heq⟩

/-- Every listed value is shown, though maybe by another root. -/
theorem exists_root_shown {values : List Float} {v : Float} (hv : v ∈ values) (hnan : v ≠ .nan)
    (places : Option Nat) :
    ∃ r ∈ rootsOf values places, r.shown = Decimal.calculatorText v places := by
  have hv : v ∈ ascending values := List.mem_mergeSort.mpr hv
  obtain ⟨w, hw, hbeq⟩ := exists_mem_eraseReps hv hnan
  obtain ⟨r, hr, hshown⟩ : ∃ r ∈ rootsOf values places, r.shown = Decimal.calculatorText w places :=
    exists_shown (List.mem_map_of_mem hw)
  exact ⟨r, hr, hshown.trans ((Binary64.sameUpToZero_of_beq hbeq).calculatorText_eq places)⟩

theorem rootsOf_ne_nil {values : List Float} (places : Option Nat) (h : values ≠ []) :
    rootsOf values places ≠ [] := by
  obtain ⟨v, hv⟩ := List.exists_mem_of_ne_nil values h
  have hv : v ∈ ascending values := List.mem_mergeSort.mpr hv
  rw [rootsOf]
  cases hsorted : ascending values with
  | nil =>
    rw [hsorted] at hv
    cases hv
  | cons w ws =>
    obtain ⟨u, hu⟩ := List.exists_mem_of_ne_nil _ (eraseReps_cons_ne_nil w ws)
    exact foldl_ne_nil (Or.inr ⟨_, List.mem_map_of_mem hu, trivial⟩)
      fun roots r (_ : roots ≠ [] ∨ True) => addShown_ne_nil roots r

end AnswerCheck.Answer
