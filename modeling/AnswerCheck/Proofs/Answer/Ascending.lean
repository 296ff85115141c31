import AnswerCheck.Proofs.Answer.Listing
import AnswerCheck.Proofs.Decimal.ShownNumber

/-! # Roots in ascending order

The order of bit patterns refines the order of finite numbers, so the values of a list of roots ascend
once repeated ones are dropped. What is shown ascends with them, and each text stands for all values
that it shows.
-/

set_option autoImplicit false

namespace AnswerCheck.Answer

open Binary64 Decimal

/-! ## The order of bit patterns -/

/-- The place of a finite number with these bits but for its sign. -/
def sizePlace (b : Nat) : Int :=
  if b = 0 then 0
  else if b / 2 ^ 52 = 0 then 2 ^ 53 + b
  else (b / 2 ^ 52 : Nat) * 2 ^ 53 + 2 ^ 52 + (b % 2 ^ 52 : Nat)

theorem sizePlace_mono {b c : Nat} (h : b ≤ c) : sizePlace b ≤ sizePlace c := by
  unfold sizePlace
  have := Nat.div_add_mod b (2 ^ 52)
  have := Nat.div_add_mod c (2 ^ 52)
  have hdiv : b / 2 ^ 52 ≤ c / 2 ^ 52 := Nat.div_le_div_right h
  have := Nat.mod_lt b (y := 2 ^ 52) (by decide)
  have := Nat.mod_lt c (y := 2 ^ 52) (by decide)
  split_ifs <;> omega

/-- The fields of a number, read off its bits but for its sign. -/
theorem fields_of_size (x : Float) :
    (Binary.ofFloat x).mantissa =
        (if x.toBits.toNat % 2 ^ 63 / 2 ^ 52 = 0 then 0 else 2 ^ 52) + x.toBits.toNat % 2 ^ 63 % 2 ^ 52 ∧
      (Binary.ofFloat x).exponent =
        max ((x.toBits.toNat % 2 ^ 63 / 2 ^ 52 : Nat) - 1075 : Int) (-1074) := by
  have hscale : x.toBits.toNat / Nat.pow 2 52 % Nat.pow 2 11 = x.toBits.toNat % 2 ^ 63 / 2 ^ 52 := by
    simp only [Nat.pow_eq]
    omega
  have hfraction : x.toBits.toNat % Nat.pow 2 52 = x.toBits.toNat % 2 ^ 63 % 2 ^ 52 := by
    simp only [Nat.pow_eq]
    omega
  simp only [Binary.ofFloat, hscale, hfraction]
  split
  · next hzero =>
    rw [hzero]
    exact ⟨(Nat.zero_add _).symm, rfl⟩
  · refine ⟨Nat.add_comm _ _, ?_⟩
    dsimp only
    omega

theorem place_eq_sizePlace {x : Float} (hx : x.isFinite = true) :
    place (unpacked x) = (signFrom (isNegative x)).apply (sizePlace (x.toBits.toNat % 2 ^ 63)) := by
  obtain ⟨hmantissa, hexponent⟩ := fields_of_size x
  generalize x.toBits.toNat % 2 ^ 63 = b at *
  have hsplit := Nat.div_add_mod b (2 ^ 52)
  obtain ⟨hunpacked, hzero⟩ | ⟨hm, hunpacked⟩ := fields_eq hx
  · have hb : b = 0 := by
      rw [hzero] at hmantissa
      split at hmantissa <;> omega
    rw [hunpacked, hb]
    cases signFrom (isNegative x) <;> rfl
  · rw [hunpacked, place]
    congr 1
    rw [sizePlace, if_neg (by rintro rfl; simp [hmantissa] at hm), hexponent, hmantissa]
    split <;> omega

theorem rank_eq (x : Float) :
    rank x.toBits =
      if isNegative x then (-1 : Int) - (x.toBits.toNat % 2 ^ 63 : Nat)
      else (x.toBits.toNat % 2 ^ 63 : Nat) := by
  have hlt : x.toBits.toNat < 2 ^ 64 := x.toBits.toNat_lt
  have hnegative : isNegative x = true ↔ 2 ^ 63 ≤ x.toBits.toNat := decide_eq_true_iff
  change (if isNegative x then 0x7FFFFFFFFFFFFFFF - (x.toBits.toNat : Int) else x.toBits.toNat) = _
  split
  · next h =>
    have := hnegative.mp h
    omega
  · next h =>
    have := mt hnegative.mpr h
    omega

variable {x y : Float}

/-- Finite numbers whose bit patterns are in order are in order. -/
theorem toRat_le_of_rank_le (hx : x.isFinite = true) (hy : y.isFinite = true)
    (h : rank x.toBits ≤ rank y.toBits) : toRat x ≤ toRat y := by
  rw [← le_iff_toRat hx hy, le_iff (isNaN_of_isFinite hx) (isNaN_of_isFinite hy), place_eq_sizePlace hx,
    place_eq_sizePlace hy]
  rw [rank_eq, rank_eq] at h
  have hnonneg (b : Nat) : 0 ≤ sizePlace b := sizePlace_mono (Nat.zero_le b)
  have hx0 := hnonneg (x.toBits.toNat % 2 ^ 63)
  have hy0 := hnonneg (y.toBits.toNat % 2 ^ 63)
  cases hsx : isNegative x with
  | true =>
    cases hsy : isNegative y with
    | true =>
      simp only [hsx, hsy, if_true] at h
      exact neg_le_neg (sizePlace_mono (by omega))
    | false => exact (neg_nonpos.mpr hx0).trans hy0
  | false =>
    cases hsy : isNegative y with
    | true =>
      simp only [hsx, hsy, Bool.false_eq_true, if_true, if_false] at h
      omega
    | false =>
      simp only [hsx, hsy, Bool.false_eq_true, if_false] at h
      exact sizePlace_mono (by omega)

/-! ## Sorting -/

section

variable {β : Type} {key : β → Int}

theorem pairwise_mergeSort_key (key : β → Int) (xs : List β) :
    (xs.mergeSort fun x y => key x ≤ key y).Pairwise (key · ≤ key ·) := by
  have htrans (x y z : β) (hxy : decide (key x ≤ key y) = true) (hyz : decide (key y ≤ key z) = true) :
      decide (key x ≤ key z) = true :=
    decide_eq_true ((of_decide_eq_true hxy).trans (of_decide_eq_true hyz))
  have htotal (x y : β) : (decide (key x ≤ key y) || decide (key y ≤ key x)) = true := by
    simpa using le_total (key x) (key y)
  exact (List.pairwise_mergeSort htrans htotal xs).imp of_decide_eq_true

/-- If the key tells the elements apart, there is one ascending order of them. -/
theorem mergeSort_key_eq {xs ys : List β} (hkey : ∀ x ∈ xs, ∀ y ∈ xs, key x = key y → x = y)
    (hperm : ys.Perm xs) (hsorted : ys.Pairwise (key · ≤ key ·)) :
    (xs.mergeSort fun x y => key x ≤ key y) = ys := by
  refine ((List.mergeSort_perm xs _).trans hperm.symm).eq_of_pairwise (fun x y hx hy hxy hyx => ?_)
    (pairwise_mergeSort_key key xs) hsorted
  exact hkey x (List.mem_mergeSort.mp hx) y (hperm.mem_iff.mp hy) (le_antisymm hxy hyx)

end

theorem rank_injective : Function.Injective rank := by
  intro b c h
  have hb : b.toNat < 2 ^ 64 := b.toNat_lt
  have hc : c.toNat < 2 ^ 64 := c.toNat_lt
  refine UInt64.toNat_inj.mp ?_
  simp only [rank, Binary.signBit, decide_eq_true_eq] at h
  split at h <;> split at h <;> omega

theorem ascending_eq {values sorted : List Float} (hperm : sorted.Perm values)
    (hsorted : sorted.Pairwise (rank ·.toBits ≤ rank ·.toBits)) : ascending values = sorted := by
  refine mergeSort_key_eq (fun v _ w _ h => ?_) hperm hsorted
  rw [← Float.ofBits_toBits v, rank_injective h, Float.ofBits_toBits]

/-! ## Repeated values -/

theorem beq_iff_toRat (hx : x.isFinite = true) (hy : y.isFinite = true) :
    (x == y) = true ↔ toRat x = toRat y := by
  rw [beq_iff (isNaN_of_isFinite hx) (isNaN_of_isFinite hy), le_antisymm_iff, le_antisymm_iff,
    ← le_iff_toRat hx hy, ← le_iff_toRat hy hx, le_iff (isNaN_of_isFinite hx) (isNaN_of_isFinite hy),
    le_iff (isNaN_of_isFinite hy) (isNaN_of_isFinite hx)]

/-- Of an ascending list without repetitions the values rise strictly. -/
theorem pairwise_eraseReps {vs : List Float} (hfinite : ∀ v ∈ vs, v.isFinite = true)
    (hsorted : vs.Pairwise (toRat · ≤ toRat ·)) : vs.eraseReps.Pairwise (toRat · < toRat ·) := by
  cases vs with
  | nil => exact List.Pairwise.nil
  | cons first vs =>
    induction vs generalizing first with
    | nil => exact List.pairwise_singleton _ first
    | cons second vs ih =>
      obtain ⟨hfirst, hrest⟩ := List.pairwise_cons.mp hsorted
      rw [eraseReps_cons_cons]
      split
      · have hsub : (first :: vs).Sublist (first :: second :: vs) :=
          (List.sublist_cons_self second vs).cons_cons first
        exact ih first (fun v hv => hfinite v (hsub.subset hv)) (hsorted.sublist hsub)
      · next hne =>
        have hlt : toRat first < toRat second := by
          refine lt_of_le_of_ne (hfirst second List.mem_cons_self) fun heq => hne ?_
          exact (beq_iff_toRat (hfinite first (by simp)) (hfinite second (by simp))).mpr heq
        refine List.pairwise_cons.mpr ⟨fun v hv => ?_,
          ih second (fun v hv => hfinite v (List.mem_cons_of_mem first hv)) hrest⟩
        obtain rfl | hv := List.mem_cons.mp ((eraseReps_sublist _).subset hv)
        · exact hlt
        · exact hlt.trans_le ((List.pairwise_cons.mp hrest).1 v hv)

theorem pairwise_ascending {values : List Float} (hfinite : ∀ v ∈ values, v.isFinite = true) :
    (ascending values).Pairwise (toRat · ≤ toRat ·) := by
  refine (pairwise_mergeSort_key _ values).imp_of_mem fun {v w} hv hw hrank => ?_
  exact toRat_le_of_rank_le (hfinite v (List.mem_mergeSort.mp hv)) (hfinite w (List.mem_mergeSort.mp hw)) hrank

/-! ## Repeated texts -/

theorem addShown_sublist (roots : List Root) (r : Root) : (addShown roots r).Sublist (roots ++ [r]) := by
  rw [addShown]
  split
  · exact List.sublist_append_left roots [r]
  · exact List.Sublist.refl _

/-- Leaving out texts that are shown already leaves the rest in its order. -/
theorem foldl_addShown_sublist (known rs : List Root) : (rs.foldl addShown known).Sublist (known ++ rs) := by
  induction rs generalizing known with
  | nil => rw [List.foldl_nil, List.append_nil]
  | cons r rs ih =>
    have hstep := (addShown_sublist known r).append_right rs
    rw [List.append_assoc, List.singleton_append] at hstep
    exact (ih (addShown known r)).trans hstep

theorem nodup_addShown {roots : List Root} (h : (roots.map (·.shown)).Nodup) (r : Root) :
    ((addShown roots r).map (·.shown)).Nodup := by
  rw [addShown]
  split
  · exact h
  · next hnone =>
    rw [List.map_append, List.map_singleton, ← List.concat_eq_append]
    refine List.Nodup.concat (fun hmem => hnone ?_) h
    obtain ⟨s, hs, hshown⟩ := List.mem_map.mp hmem
    exact List.any_eq_true.mpr ⟨s, hs, beq_iff_eq.mpr hshown⟩

theorem nodup_foldl_addShown (known rs : List Root) (h : (known.map (·.shown)).Nodup) :
    ((rs.foldl addShown known).map (·.shown)).Nodup := by
  induction rs generalizing known with
  | nil => exact h
  | cons r rs ih => exact ih (addShown known r) (nodup_addShown h r)

/-! ## The roots of a list of values -/

section

variable {values : List Float} {places : Option Nat}

theorem shown_of_mem_rootsOf {r : Root} (h : r ∈ rootsOf values places) :
    r.shown = calculatorText r.value places := by
  have hr := (foldl_addShown_sublist [] _).subset h
  obtain ⟨v, -, rfl⟩ := List.mem_map.mp hr
  rw [Root.value, Float.ofBits_toBits]

theorem pairwise_value_rootsOf (hfinite : ∀ v ∈ values, v.isFinite = true) :
    (rootsOf values places).Pairwise fun r s => toRat r.value < toRat s.value := by
  refine List.Pairwise.sublist (foldl_addShown_sublist [] _) (List.pairwise_map.mpr ?_)
  simp only [Root.value, Float.ofBits_toBits]
  exact pairwise_eraseReps (fun v hv => hfinite v (List.mem_mergeSort.mp hv)) (pairwise_ascending hfinite)

theorem nodup_shown_rootsOf (values : List Float) (places : Option Nat) :
    ((rootsOf values places).map (·.shown)).Nodup :=
  nodup_foldl_addShown [] _ List.nodup_nil

/-- What is shown ascends: rounding keeps the order, and distinct texts show distinct numbers. -/
theorem pairwise_shownNumber_rootsOf (hfinite : ∀ v ∈ values, v.isFinite = true) :
    (rootsOf values places).Pairwise fun r s => shownNumber places r.value < shownNumber places s.value := by
  have htexts := List.pairwise_map.mp (nodup_shown_rootsOf values places)
  refine ((pairwise_value_rootsOf hfinite).and htexts).imp_of_mem fun {r s} hr hs h => ?_
  obtain ⟨hvalue, htext⟩ := h
  have hr' := hfinite _ (value_mem_of_mem_rootsOf hr)
  have hs' := hfinite _ (value_mem_of_mem_rootsOf hs)
  refine lt_of_le_of_ne (shownNumber_mono hr' hs' places hvalue.le) fun heq => htext ?_
  rw [shown_of_mem_rootsOf hr, shown_of_mem_rootsOf hs, calculatorText_of_shownNumber_eq hr' hs' heq]

/-- The roots of finite values have values among these, in strictly ascending order, and each is shown
as a calculator shows its value. No two texts are alike, the numbers they denote ascend strictly, and
the text of each value is shown exactly once. -/
theorem rootsOf_ascending (hfinite : ∀ v ∈ values, v.isFinite = true) (places : Option Nat) :
    (∀ r ∈ rootsOf values places, r.value ∈ values ∧ r.shown = calculatorText r.value places) ∧
      (rootsOf values places).Pairwise (·.value < ·.value) ∧
      ((rootsOf values places).map (·.shown)).Nodup ∧
      (∃ numbers : List ℚ,
        (rootsOf values places).map (fun r => exactNumber? r.shown.toList) = numbers.map some ∧
          numbers.Pairwise (· < ·)) ∧
      ∀ v ∈ values, ((rootsOf values places).map (·.shown)).count (calculatorText v places) = 1 := by
  refine ⟨fun r hr => ⟨value_mem_of_mem_rootsOf hr, shown_of_mem_rootsOf hr⟩, ?_,
    nodup_shown_rootsOf values places,
    ⟨(rootsOf values places).map fun r => shownNumber places r.value, ?_, ?_⟩, fun v hv => ?_⟩
  · refine (pairwise_value_rootsOf hfinite).imp_of_mem fun hr hs hlt => ?_
    have hr' := hfinite _ (value_mem_of_mem_rootsOf hr)
    have hs' := hfinite _ (value_mem_of_mem_rootsOf hs)
    exact (lt_iff_toRat hr' hs').mpr hlt
  · rw [List.map_map]
    refine List.map_congr_left fun r hr => ?_
    rw [shown_of_mem_rootsOf hr]
    exact exactNumber?_calculatorText (hfinite _ (value_mem_of_mem_rootsOf hr)) places
  · exact List.pairwise_map.mpr (pairwise_shownNumber_rootsOf hfinite)
  · have hnan : v ≠ .nan := ne_nan_iff.mpr (isNaN_of_isFinite (hfinite v hv))
    obtain ⟨r, hr, hshown⟩ := exists_root_shown hv hnan places
    exact List.count_eq_one_of_mem (nodup_shown_rootsOf values places) (hshown ▸ List.mem_map_of_mem hr)

theorem rootsOf_ascending_zeros :
    (∀ v ∈ ([3, -1, 3, -0.0, 0.0] : List Float), v.isFinite = true) ∧
      (rootsOf [3, -1, 3, -0.0, 0.0] none).map (·.shown) = ["-1", "0", "3"] ∧
      (rootsOf [3, -1, 3, -0.0, 0.0] none).Pairwise (·.value < ·.value) ∧
      ((rootsOf [3, -1, 3, -0.0, 0.0] none).map (·.shown)).count (calculatorText (-0.0) none) = 1 := by
  have hfinite : ∀ v ∈ ([3, -1, 3, -0.0, 0.0] : List Float), v.isFinite = true := by decide +kernel
  have hsorted : ascending [3, -1, 3, -0.0, 0.0] = [-1, -0.0, 0.0, 3, 3] :=
    ascending_eq (by decide +kernel) (by decide +kernel)
  have htexts : (rootsOf [3, -1, 3, -0.0, 0.0] none).map (·.shown) = ["-1", "0", "3"] := by
    rw [rootsOf, hsorted]
    decide +kernel
  obtain ⟨-, hascending, -, -, honce⟩ := rootsOf_ascending hfinite none
  exact ⟨hfinite, htexts, hascending, honce (-0.0) (by simp)⟩

end

end AnswerCheck.Answer
