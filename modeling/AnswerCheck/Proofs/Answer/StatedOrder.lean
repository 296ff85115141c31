import AnswerCheck.Proofs.Answer.Ascending

/-! # The order in which roots are given

The order of listing tells all bit patterns apart, so a list of roots has only one ascending order. Of
the roots that are shown the same the line of the final answer keeps the first one in this order, and it
counts what it keeps.
-/

set_option autoImplicit false

namespace AnswerCheck.Answer

open Binary64

/-! ## Bit patterns -/

/-- The bits of a finite number are those it was made of. Only for what is no number they can differ. -/
theorem toBits_ofBits {b : UInt64} (h : (Float.ofBits b).isFinite = true) : (Float.ofBits b).toBits = b := by
  have hvalid : Float.Model.Format.binary64.Valid b.toBitVec := by
    refine ⟨fun hexponent hmantissa => ?_⟩
    have hnan : Float.Model.UnpackedFloat.unpack .binary64 b.toBitVec = .notANumber := by
      rw [unpack_eq, if_pos hexponent, if_neg hmantissa]
    have hbits : Float.ofBits b = .ofModel (Float.Model.pack .notANumber) :=
      congrArg (fun f => Float.ofModel (Float.Model.pack f)) hnan
    rw [hbits] at h
    cases h
  exact congrArg Float.toBits (Float.ofBits_toBits (.ofModel ⟨b, hvalid⟩))

theorem value_le_of_rank_le {r s : Root} (hr : r.value.isFinite = true) (hs : s.value.isFinite = true)
    (h : rank r.bits ≤ rank s.bits) : r.value ≤ s.value := by
  refine (le_iff_toRat hr hs).mpr (toRat_le_of_rank_le hr hs ?_)
  rwa [Root.value, Root.value, toBits_ofBits hr, toBits_ofBits hs]

/-! ## The roots that are shown -/

section Shown

variable {roots known rs : List Root} {r : Root}

/-- The roots that the line of the final answer shows. -/
def shownRoots (roots : List Root) : List Root :=
  (roots.mergeSort fun r s => rank r.bits ≤ rank s.bits).foldl addShown []

/-- A root is kept if none before it is shown the same. -/
theorem mem_foldl_addShown (h : r ∈ rs.foldl addShown known) :
    r ∈ known ∨ ∃ front back, rs = front ++ r :: back ∧ ∀ s ∈ known ++ front, s.shown ≠ r.shown := by
  induction rs generalizing known with
  | nil => exact Or.inl h
  | cons q rs ih =>
    obtain hmem | ⟨front, back, rfl, hfront⟩ := ih h
    · rw [addShown] at hmem
      split at hmem
      · exact Or.inl hmem
      · next hnew =>
        refine (List.mem_append.mp hmem).imp_right fun hr => ?_
        obtain rfl := List.mem_singleton.mp hr
        refine ⟨[], rs, rfl, fun s hs hshown => hnew ?_⟩
        rw [List.append_nil] at hs
        exact List.any_eq_true.mpr ⟨s, hs, beq_iff_eq.mpr hshown⟩
    · refine Or.inr ⟨q :: front, back, rfl, fun s hs => ?_⟩
      obtain hs | hs := List.mem_append.mp hs
      · exact hfront s (List.mem_append_left front (subset_addShown known q hs))
      · obtain rfl | hs := List.mem_cons.mp hs
        · -- Either `s` was kept or what was known is shown as it is.
          have hshows : ∃ p ∈ [s].foldl addShown known, p.shown = s.shown :=
            exists_shown (List.mem_singleton_self s)
          obtain ⟨p, hp, hshown⟩ := hshows
          exact hshown ▸ hfront p (List.mem_append_left front hp)
        · exact hfront s (List.mem_append_right _ hs)

theorem shownRoots_sublist (roots : List Root) :
    (shownRoots roots).Sublist (roots.mergeSort fun r s => rank r.bits ≤ rank s.bits) :=
  foldl_addShown_sublist [] _

/-- Each root that is shown has the least value of all that are shown as it is. -/
theorem rank_le_of_mem_shownRoots (hr : r ∈ shownRoots roots) {s : Root} (hs : s ∈ roots)
    (hshown : s.shown = r.shown) : rank r.bits ≤ rank s.bits := by
  obtain hr | ⟨front, back, hsorted, hfront⟩ := mem_foldl_addShown hr
  · cases hr
  have hascending := pairwise_mergeSort_key (fun r => rank r.bits) roots
  have hs : s ∈ roots.mergeSort fun r s => rank r.bits ≤ rank s.bits := List.mem_mergeSort.mpr hs
  rw [hsorted] at hascending hs
  obtain hs | hs := List.mem_append.mp hs
  · exact absurd hshown (hfront s hs)
  · obtain rfl | hs := List.mem_cons.mp hs
    · exact le_refl _
    · exact (List.pairwise_cons.mp (List.pairwise_append.mp hascending).2.1).1 s hs

theorem nodup_shownRoots (roots : List Root) : ((shownRoots roots).map (·.shown)).Nodup :=
  nodup_foldl_addShown [] _ List.nodup_nil

theorem mem_of_mem_shownRoots (hr : r ∈ shownRoots roots) : r ∈ roots :=
  List.mem_mergeSort.mp ((shownRoots_sublist roots).subset hr)

/-- Roots that are shown differently have different ranks. -/
theorem rising_shownRoots (hroot : ∀ r ∈ roots, ∀ s ∈ roots, rank r.bits = rank s.bits → r = s) :
    (shownRoots roots).Pairwise fun r s => rank r.bits < rank s.bits := by
  have hascending := (pairwise_mergeSort_key (fun r => rank r.bits) roots).sublist (shownRoots_sublist roots)
  have hdifferent := List.pairwise_map.mp (nodup_shownRoots roots)
  refine (hascending.and hdifferent).imp_of_mem fun {r s} hr hs h => ?_
  obtain ⟨hrank, hne⟩ := h
  refine lt_of_le_of_ne hrank fun heq => hne ?_
  rw [hroot r (mem_of_mem_shownRoots hr) s (mem_of_mem_shownRoots hs) heq]

end Shown

/-! ## The line -/

theorem assignmentsFrom_eq_mapIdx (number : Nat) (texts : List String) :
    assignmentsFrom number texts = texts.mapIdx fun i shown => "x" ++ toString (i + number) ++ "=" ++ shown := by
  induction texts generalizing number with
  | nil => rfl
  | cons shown texts ih =>
    rw [assignmentsFrom, ih, List.mapIdx_cons]
    simp only [Nat.zero_add, Nat.add_assoc, Nat.add_comm 1]

theorem finalLine_one {roots : List Root} {r : Root} (h : shownRoots roots = [r]) :
    finalLine roots = "Final Answer: x=" ++ r.shown := by
  have htexts : shownTexts roots = [r.shown] := congrArg (List.map Root.shown) h
  rw [finalLine, htexts]

theorem finalLine_several {roots : List Root} (h : (shownRoots roots).length ≠ 1) :
    finalLine roots = "Final Answer: " ++ ", ".intercalate
      (((shownRoots roots).map (·.shown)).mapIdx fun i shown => "x" ++ toString (i + 1) ++ "=" ++ shown) := by
  have htexts : shownTexts roots = (shownRoots roots).map (·.shown) := rfl
  rw [← assignmentsFrom_eq_mapIdx, ← htexts, finalLine]
  split
  · next only honly =>
    rw [← List.length_map (·.shown), ← htexts, honly] at h
    exact absurd rfl h
  · rfl

/-- The line of the final answer is the same in whatever order the roots are given, if roots with the same
bits are shown the same. It shows every text once, by the least values that have it in ascending order:
as `x` if there is one, and else as `x1`, `x2` and so on. -/
theorem finalLine_any_order {roots : List Root}
    (hsame : ∀ r ∈ roots, ∀ s ∈ roots, r.bits = s.bits → r.shown = s.shown) :
    (∀ roots' : List Root, roots'.Perm roots → finalLine roots' = finalLine roots) ∧
      ∃ firsts : List Root,
        (firsts.map (·.shown)).Nodup ∧
        (∀ t, t ∈ firsts.map (·.shown) ↔ ∃ r ∈ roots, r.shown = t) ∧
        (∀ r ∈ firsts, r ∈ roots ∧ ∀ s ∈ roots, s.shown = r.shown → rank r.bits ≤ rank s.bits) ∧
        (firsts.Pairwise fun r s => rank r.bits < rank s.bits ∧
          (r.value.isFinite = true → s.value.isFinite = true → r.value ≤ s.value)) ∧
        (∀ r, firsts = [r] → finalLine roots = "Final Answer: x=" ++ r.shown) ∧
        (firsts.length ≠ 1 → finalLine roots = "Final Answer: " ++ ", ".intercalate
          ((firsts.map (·.shown)).mapIdx fun i shown => "x" ++ toString (i + 1) ++ "=" ++ shown)) := by
  have hroot : ∀ r ∈ roots, ∀ s ∈ roots, rank r.bits = rank s.bits → r = s := by
    intro r hr s hs hrank
    have hbits := rank_injective hrank
    have hshown := hsame r hr s hs hbits
    cases r
    cases s
    exact Root.mk.injEq .. ▸ ⟨hbits, hshown⟩
  refine ⟨fun roots' hperm => ?_, shownRoots roots, nodup_shownRoots roots, fun t => mem_shownTexts,
    fun r hr => ⟨mem_of_mem_shownRoots hr, fun s => rank_le_of_mem_shownRoots hr⟩, ?_,
    fun r => finalLine_one, finalLine_several⟩
  · have hsort : (roots'.mergeSort fun r s => rank r.bits ≤ rank s.bits) =
        roots.mergeSort fun r s => rank r.bits ≤ rank s.bits :=
      mergeSort_key_eq (fun r hr s hs => hroot r (hperm.mem_iff.mp hr) s (hperm.mem_iff.mp hs))
        ((List.mergeSort_perm roots _).trans hperm.symm) (pairwise_mergeSort_key _ roots)
    rw [finalLine, finalLine, shownTexts, shownTexts, hsort]
  · exact (rising_shownRoots hroot).imp fun hrank =>
      ⟨hrank, fun hr hs => value_le_of_rank_le hr hs (le_of_lt hrank)⟩

/-- Three is given twice, once a little larger, and zero with both signs. -/
theorem finalLine_any_order_zeros :
    let roots : List Root := [⟨0x4008000000000001, "3"⟩, ⟨0x0000000000000000, "0"⟩, ⟨0xBFF0000000000000, "-1"⟩,
      ⟨0x4008000000000000, "3"⟩, ⟨0x8000000000000000, "0"⟩]
    (∀ r ∈ roots, ∀ s ∈ roots, r.bits = s.bits → r.shown = s.shown) ∧
      finalLine roots.reverse = finalLine roots ∧ finalLine roots = "Final Answer: x1=-1, x2=0, x3=3" := by
  intro roots
  have hsame : ∀ r ∈ roots, ∀ s ∈ roots, r.bits = s.bits → r.shown = s.shown := by decide
  have hsorted : (roots.mergeSort fun r s => rank r.bits ≤ rank s.bits) =
      [⟨0xBFF0000000000000, "-1"⟩, ⟨0x8000000000000000, "0"⟩, ⟨0x0000000000000000, "0"⟩,
        ⟨0x4008000000000000, "3"⟩, ⟨0x4008000000000001, "3"⟩] :=
    mergeSort_key_eq (by decide +kernel) (by decide +kernel) (by decide +kernel)
  have hline : finalLine roots = "Final Answer: x1=-1, x2=0, x3=3" := by
    rw [finalLine, shownTexts, hsorted]
    decide +kernel
  exact ⟨hsame, (finalLine_any_order hsame).1 _ (List.reverse_perm roots), hline⟩

end AnswerCheck.Answer
