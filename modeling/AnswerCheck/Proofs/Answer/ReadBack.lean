import AnswerCheck.Proofs.Answer.Assignments
import AnswerCheck.Proofs.Answer.Listing
import AnswerCheck.Proofs.Decimal.Rendering
import AnswerCheck.Proofs.Decimal.Value

/-! # Reading a stated answer back

The line of the final answer assigns the stated numbers to `x`, or to `x1`, `x2` and so on. Reading it
back finds each of them, and also the numbers of the labels: they are gained as candidates unless
they are stated as well.
-/

set_option autoImplicit false

namespace AnswerCheck.Answer

open Text Decimal Search Binary64

/-! ## Collecting numbers -/

theorem mem_addNew {known : List Float} {v x : Float} (h : x ∈ addNew known v) :
    x ∈ known ∨ x = v := by
  rw [addNew] at h
  split at h
  · exact Or.inl h
  · rwa [List.mem_append, List.mem_singleton] at h

theorem mem_of_mem_collected {values : List Float} {x : Float} (h : x ∈ values.foldl addNew []) :
    x ∈ values := by
  obtain h | ⟨v, hv, rfl⟩ := mem_foldl_of_step h fun _ _ _ => mem_addNew
  · cases h
  · exact hv

theorem subset_addNew (known : List Float) (v : Float) : known ⊆ addNew known v := by
  intro x hx
  rw [addNew]
  split
  · exact hx
  · exact List.mem_append_left [v] hx

/-- No number is lost when repeated ones are dropped. -/
theorem exists_collected {values : List Float} {v : Float} (hv : v ∈ values) (hnan : v ≠ .nan) :
    ∃ x ∈ values.foldl addNew [], (x == v) = true := by
  refine exists_mem_foldl_of_step (fun x v => (x == v) = true) hv (fun known => ?_)
    subset_addNew
  rw [addNew]
  split
  · next hany => exact List.any_eq_true.mp hany
  · exact ⟨v, by simp, Float.beq_self_iff.mpr hnan⟩

/-! ## Numbers in a line of assignments -/

/-- A text that denotes a number. -/
structure Shown where
  text : String
  value : Float
  numeral : ProseNumeral text.toList value

theorem exists_map_text {texts : List String} (h : ∀ t ∈ texts, ∃ value, ProseNumeral t.toList value) :
    ∃ ns : List Shown, texts = ns.map Shown.text := by
  induction texts with
  | nil => exact ⟨[], rfl⟩
  | cons t texts ih =>
    obtain ⟨value, hvalue⟩ := h t List.mem_cons_self
    obtain ⟨ns, rfl⟩ := ih fun u hu => h u (List.mem_cons_of_mem t hu)
    exact ⟨⟨t, value, hvalue⟩ :: ns, rfl⟩

theorem ne_nan_of_proseNumeral {text : List Char} {value : Float} (h : ProseNumeral text value) :
    value ≠ .nan := by
  cases h with
  | unsigned h => exact toFloat_ne_nan _
  | minus h => exact Binary64.neg_ne_nan (toFloat_ne_nan _)

/-- The number assigned to the variable with a label. -/
def Shown.assigned (n : Shown) (label : List Char) (hlabel : IsDigits label) : Assignment :=
  ⟨label, n.text.toList, n.value, hlabel, n.numeral⟩

/-- The numbers assigned to variables that are counted from a number on. -/
def numbered : Nat → List Shown → List Assignment
  | _, [] => []
  | k, n :: ns => n.assigned (digits k) (isDigits_digits k) :: numbered (k + 1) ns

theorem toList_assignmentsFrom (k : Nat) (ns : List Shown) :
    (assignmentsFrom k (ns.map Shown.text)).map String.toList =
      (numbered k ns).map Assignment.text := by
  induction ns generalizing k with
  | nil => rfl
  | cons n ns ih =>
    rw [List.map_cons, assignmentsFrom, List.map_cons, ih, numbered, List.map_cons]
    simp [Assignment.text, Shown.assigned, digits]

theorem digits_inj {i k : Nat} : digits k = digits i ↔ k = i := by
  constructor
  · intro h
    rw [← valueOf_digits k, h, valueOf_digits]
  · rintro rfl
    rfl

/-- The search for the assignments to one name finds the number in its place. -/
theorem valueFor_numbered (i k : Nat) (ns : List Shown) :
    (numbered k ns).flatMap (Assignment.valueFor (digits i)) =
      if i < k then [] else ((ns.map Shown.value)[i - k]?).toList := by
  induction ns generalizing k with
  | nil => simp [numbered]
  | cons n ns ih =>
    rw [numbered, List.flatMap_cons, ih, Assignment.valueFor]
    simp only [Shown.assigned, digits_inj, List.map_cons]
    rcases Nat.lt_trichotomy i k with h | rfl | h
    · rw [if_neg (by omega), if_pos (by omega), if_pos h]
      rfl
    · simp
    · obtain ⟨j, rfl⟩ : ∃ j, i = k + 1 + j := ⟨i - (k + 1), by omega⟩
      have hindex : k + 1 + j - k = j + 1 := by omega
      rw [if_neg (by omega), if_neg (by omega), if_neg (by omega), hindex, Nat.add_sub_cancel_left]
      simp

theorem valueFor_unlabelled (k : Nat) (ns : List Shown) :
    (numbered k ns).flatMap (Assignment.valueFor []) = [] := by
  induction ns generalizing k with
  | nil => rfl
  | cons n ns ih =>
    rw [numbered, List.flatMap_cons, ih, List.append_nil]
    exact if_neg (digits_ne_nil k)

def labelNumber (i : Nat) : Float :=
  (⟨i, 0⟩ : Decimal).toFloat

theorem numbers_numbered (k : Nat) (ns : List Shown) :
    (numbered k ns).flatMap Assignment.numbers =
      ((ns.map Shown.value).zipIdx k).flatMap fun (v, i) => [labelNumber i, v] := by
  induction ns generalizing k with
  | nil => rfl
  | cons n ns ih =>
    have hlabel : ofParts (digits k) [] 0 = ⟨k, 0⟩ := by
      rw [ofParts, List.append_nil, valueOf_digits]
      rfl
    rw [numbered, List.flatMap_cons, ih, List.map_cons, List.zipIdx_cons, List.flatMap_cons,
      Assignment.numbers]
    simp only [Shown.assigned, if_neg (digits_ne_nil k), hlabel]
    rfl

/-! ## The line of the final answer -/

/-- The numbers that the line of the final answer states, in its order. -/
def statedNumbers (roots : List Root) : List Float :=
  (shownTexts roots).filterMap fun t => Decimal.ofText? t.toList

/-- What is read off a line that states these numbers: the number itself if there is only one, else
the numbers of `x1` and `x2`, and then each number with the number of its label in front. -/
def readBack : List Float → List Float
  | [only] => [only]
  | several => several.take 2 ++ (several.zipIdx 1).flatMap fun (v, i) => [labelNumber i, v]

theorem labelNumber_ne_nan (i : Nat) : labelNumber i ≠ .nan :=
  toFloat_ne_nan _

theorem readBack_of_length_ne_one {values : List Float} (h : values.length ≠ 1) :
    readBack values =
      values.take 2 ++ (values.zipIdx 1).flatMap fun (v, i) => [labelNumber i, v] := by
  unfold readBack
  split
  · exact absurd rfl h
  · rfl

/-- The candidates of the line are the numbers that are read back. -/
theorem candidates_eq_readBack {roots : List Root} {ns : List Shown}
    (hns : shownTexts roots = ns.map Shown.text) :
    candidates (finalLine roots).toList = (readBack (ns.map Shown.value)).foldl addNew [] := by
  rw [finalLine, hns, candidates]
  split
  · next only honly =>
    obtain ⟨n, rfl, rfl⟩ := List.map_eq_singleton_iff.mp honly
    have hline : ("Final Answer: x=" ++ n.text).toList =
        "Final Answer: ".toList ++ listed [n.assigned [] (by simp [IsDigits])] := by
      simp [listed, Assignment.text, Shown.assigned]
    rw [hline, claims_listed]
    -- The number is found twice, as an assignment and as a number.
    simp [Assignment.valueFor, Assignment.numbers, Shown.assigned, readBack, addNew,
      ne_nan_of_proseNumeral n.numeral]
  · next hmany =>
    have hlength : (ns.map Shown.value).length ≠ 1 := by
      rw [List.length_map]
      intro hone
      obtain ⟨n, rfl⟩ := List.length_eq_one_iff.mp hone
      exact hmany n.text rfl
    have hline : ("Final Answer: " ++ ", ".intercalate (assignmentsFrom 1 (ns.map Shown.text))).toList =
        "Final Answer: ".toList ++ listed (numbered 1 ns) := by
      rw [String.toList_append, String.toList_intercalate, toList_assignmentsFrom]
      rfl
    have htwo (values : List Float) : values[0]?.toList ++ values[1]?.toList = values.take 2 := by
      obtain _ | ⟨a, _ | ⟨b, rest⟩⟩ := values
      · rfl
      · rfl
      · rfl
    have hfirst : (numbered 1 ns).flatMap (Assignment.valueFor ['1']) =
        (ns.map Shown.value)[0]?.toList := valueFor_numbered 1 1 ns
    have hsecond : (numbered 1 ns).flatMap (Assignment.valueFor ['2']) =
        (ns.map Shown.value)[1]?.toList := valueFor_numbered 2 1 ns
    rw [hline, claims_listed, numbers_numbered, readBack_of_length_ne_one hlength, ← htwo]
    simp only [List.flatMap_cons, List.flatMap_nil, List.append_nil, List.nil_append,
      valueFor_unlabelled, hfirst, hsecond]

/-- What is read back are the stated numbers and, unless there is only one, the labels' numbers. -/
theorem mem_readBack {values : List Float} {x : Float} :
    x ∈ readBack values ↔
      x ∈ values ∨ values.length ≠ 1 ∧ ∃ i, 1 ≤ i ∧ i ≤ values.length ∧ x = labelNumber i := by
  by_cases hlength : values.length = 1
  · obtain ⟨v, rfl⟩ := List.length_eq_one_iff.mp hlength
    simp [readBack]
  · simp only [readBack_of_length_ne_one hlength, List.mem_append, List.mem_flatMap, Prod.exists,
      List.mem_cons, List.not_mem_nil, or_false]
    constructor
    · rintro (hx | ⟨v, i, hvi, rfl | rfl⟩)
      · exact Or.inl (List.mem_of_mem_take hx)
      · obtain ⟨hlow, hhigh, -⟩ := List.mem_zipIdx hvi
        exact Or.inr ⟨hlength, i, hlow, by omega, rfl⟩
      · exact Or.inl (List.fst_mem_of_mem_zipIdx hvi)
    · rintro (hx | ⟨-, i, hlow, hhigh, rfl⟩)
      · obtain ⟨j, hj, rfl⟩ := List.mem_iff_getElem.mp hx
        exact Or.inr ⟨_, j + 1, List.mk_mem_zipIdx_iff_le_and_getElem?_sub.mpr (by simp [hj]), Or.inr rfl⟩
      · have hj : i - 1 < values.length := by omega
        exact Or.inr ⟨values[i - 1], i,
          List.mk_mem_zipIdx_iff_le_and_getElem?_sub.mpr (by simp [hj, hlow]), Or.inl rfl⟩

/-- A line that states finite roots is read back as the stated numbers, with the numbers of `x1` and
`x2` first and every number after the number of its label. None of the stated numbers is lost; a
number is gained exactly if there is a label whose number is not stated. -/
theorem candidates_finalLine (roots : List Root) (places : Option Nat)
    (h : ∀ r ∈ roots, r.value.isFinite = true ∧ r.shown = calculatorText r.value places) :
    (statedNumbers roots).length = (shownTexts roots).length ∧
    candidates (finalLine roots).toList = (readBack (statedNumbers roots)).foldl addNew [] ∧
    (∀ v ∈ statedNumbers roots, ∃ c ∈ candidates (finalLine roots).toList, (c == v) = true) ∧
    ((∀ c ∈ candidates (finalLine roots).toList, ∃ v ∈ statedNumbers roots, (c == v) = true) ↔
      (statedNumbers roots).length = 1 ∨
        ∀ i, 1 ≤ i → i ≤ (statedNumbers roots).length →
          ∃ v ∈ statedNumbers roots, (labelNumber i == v) = true) := by
  have hnumerals : ∀ t ∈ shownTexts roots, ∃ value, ProseNumeral t.toList value := by
    intro t ht
    obtain ⟨r, hr, rfl⟩ := mem_shownTexts.mp ht
    obtain ⟨hfinite, hshown⟩ := h r hr
    rw [hshown]
    exact proseNumeral_calculatorText hfinite places
  obtain ⟨ns, hns⟩ := exists_map_text hnumerals
  have hstated : statedNumbers roots = ns.map Shown.value := by
    have hread (n : Shown) : Decimal.ofText? n.text.toList = some n.value := ofText?_eq_some n.numeral
    rw [statedNumbers, hns, List.filterMap_map]
    simp [hread]
  have hcandidates := candidates_eq_readBack hns
  rw [← hstated] at hcandidates
  have hnan : ∀ v ∈ statedNumbers roots, v ≠ .nan := by
    intro v hv
    rw [hstated] at hv
    obtain ⟨n, -, rfl⟩ := List.mem_map.mp hv
    exact ne_nan_of_proseNumeral n.numeral
  refine ⟨by rw [hstated, hns, List.length_map, List.length_map], hcandidates, fun v hv => ?_, ?_, ?_⟩
  · rw [hcandidates]
    exact exists_collected (mem_readBack.mpr (Or.inl hv)) (hnan v hv)
  · rw [hcandidates]
    intro hall
    by_cases hlength : (statedNumbers roots).length = 1
    · exact Or.inl hlength
    · refine Or.inr fun i hlow hhigh => ?_
      have hread := mem_readBack.mpr (Or.inr ⟨hlength, i, hlow, hhigh, rfl⟩)
      obtain ⟨c, hc, hbeq⟩ := exists_collected hread (labelNumber_ne_nan i)
      obtain ⟨v, hv, hbeq'⟩ := hall c hc
      exact ⟨v, hv, beq_trans (beq_symm hbeq) hbeq'⟩
  · rw [hcandidates]
    intro hlabels c hc
    obtain hc | ⟨hlength, i, hlow, hhigh, rfl⟩ := mem_readBack.mp (mem_of_mem_collected hc)
    · exact ⟨c, hc, Float.beq_self_iff.mpr (hnan c hc)⟩
    · exact hlabels.resolve_left hlength i hlow hhigh

/-- The roots of a list of values at a number of places, as the line of the final answer gets them. -/
def rootsAt (values : List Float) (places : Option Nat) : List Root :=
  values.map fun v => ⟨v.toBits, calculatorText v places⟩

theorem shown_of_mem_rootsAt {values : List Float} {places : Option Nat} :
    ∀ r ∈ rootsAt values places, ∃ x p, r.shown = calculatorText x p := by
  intro r hr
  obtain ⟨v, -, rfl⟩ := List.mem_map.mp hr
  exact ⟨v, places, rfl⟩

theorem candidates_finalLine_three :
    (∀ r ∈ rootsAt [-7.5, 2, 5] none,
      r.value.isFinite = true ∧ r.shown = calculatorText r.value none) ∧
    candidates (finalLine (rootsAt [-7.5, 2, 5] none)).toList =
      (readBack (statedNumbers (rootsAt [-7.5, 2, 5] none))).foldl addNew [] := by
  have h : ∀ r ∈ rootsAt [-7.5, 2, 5] none,
      r.value.isFinite = true ∧ r.shown = calculatorText r.value none := by
    decide +kernel
  exact ⟨h, (candidates_finalLine _ none h).2.1⟩

/-- The roots two and five are read back with a third number, that of the label `x1`. -/
theorem label_read_back :
    ∃ roots : List Root, roots ≠ [] ∧
      (∀ r ∈ roots, r.value.isFinite = true ∧ r.shown = calculatorText r.value none) ∧
      candidates (finalLine roots).toList ≠ (statedNumbers roots).foldl addNew [] := by
  have htexts : shownTexts (rootsAt [2, 5] none) = ["2", "5"] := by
    rw [shownTexts_of_ascending (by decide +kernel)]
    decide +kernel
  refine ⟨rootsAt [2, 5] none, by decide +kernel, by decide +kernel, ?_⟩
  intro h
  have hlength := congrArg List.length h
  rw [finalLine, statedNumbers, htexts] at hlength
  revert hlength
  decide +kernel

end AnswerCheck.Answer
