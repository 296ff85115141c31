import AnswerCheck.Proofs.Spelling.Parentheses
import AnswerCheck.Proofs.Spelling.Pieces
import AnswerCheck.Proofs.Spelling.Segments

/-! # Texts with parentheses around radicands

A text in which radicands got parentheses is a tree: characters that stand as they stood, and calls
of the root that were written for a bare radicand, with the blanks that stood before it. Wrapping
one more root cuts such a text only between its characters and calls, because the parentheses of a
call are closed within it.
-/

set_option autoImplicit false

namespace AnswerCheck.Spelling

open Text

variable {s t rest : List Char} {c : Char}

/-! ## Where a root stands -/

theorem root_prefix_append (hs : Stops "qrt".toList.contains s) (hne : t ≠ [])
    (h : "sqrt".toList <+: t ++ s) : "sqrt".toList <+: t := by
  obtain ⟨more, hmore⟩ := h
  have hread : after? "sqrt".toList (t ++ s) = some more := after?_eq_some.mpr hmore.symm
  have hsplit : after? "sqrt".toList (t ++ s) = _ := after?_append hne hs
  rw [hsplit] at hread
  obtain ⟨u, hu, -⟩ := Option.map_eq_some_iff.mp hread
  exact ⟨u, (after?_eq_some.mp hu).symm⟩

/-- A piece without roots stays if no root starts in it. -/
theorem wrapRadicands_append_of_rootless (ht : ¬ "sqrt".toList <:+: t)
    (hs : Stops "qrt".toList.contains s) : wrapRadicands (t ++ s) = t ++ wrapRadicands s := by
  induction t with
  | nil => rfl
  | cons c t ih =>
    have hroot : ¬ "sqrt".toList <+: c :: t := fun h => ht h.isInfix
    have hnot : ¬ "sqrt".toList <+: c :: (t ++ s) :=
      fun h => hroot (root_prefix_append hs (List.cons_ne_nil c t) h)
    rw [List.cons_append, wrapRadicands_cons hnot, ih fun h => ht (h.trans (List.suffix_cons c t).isInfix),
      List.cons_append]

/-! ## One radicand -/

/-- The parenthesis that a text starts with, if that is closed, and the text after it. -/
def argumentsOf (s : List Char) : List Char × List Char :=
  (parenthesis? s).getD ([], s)

/-- The run of characters that a bare radicand starts with, together with the arguments after the
run, and the text after them. -/
def radicandOf (s : List Char) : List Char × List Char :=
  let (arguments, rest) := argumentsOf (s.dropWhile inBareRadicand)
  (s.takeWhile inBareRadicand ++ arguments, rest)

theorem append_argumentsOf (s : List Char) : (argumentsOf s).1 ++ (argumentsOf s).2 = s := by
  rw [argumentsOf]
  cases harguments : parenthesis? s with
  | none => rfl
  | some found => exact (parenthesis?_eq_some harguments).symm

theorem matched_argumentsOf (s : List Char) : Matched (argumentsOf s).1 := by
  rw [argumentsOf]
  cases harguments : parenthesis? s with
  | none => rfl
  | some found => exact .of_parenthesis? harguments

theorem argumentsOf_group (h : Matched t) (rest : List Char) :
    argumentsOf ('(' :: t ++ ')' :: rest) = ('(' :: t ++ [')'], rest) := by
  rw [argumentsOf, parenthesis?_group h, Option.getD_some]

theorem radicandOf_append (hrun : ∀ c ∈ t, inBareRadicand c = true) (hs : Stops inBareRadicand s) :
    radicandOf (t ++ s) = (t ++ (argumentsOf s).1, (argumentsOf s).2) := by
  rw [radicandOf, takeWhile_append hrun hs, dropWhile_append hrun hs]

theorem radicandOf_cons (hc : inBareRadicand c = true) (s : List Char) :
    radicandOf (c :: s) = (c :: (radicandOf s).1, (radicandOf s).2) := by
  rw [radicandOf, List.takeWhile_cons_of_pos hc, List.dropWhile_cons_of_pos hc]
  rfl

theorem append_radicandOf (s : List Char) : (radicandOf s).1 ++ (radicandOf s).2 = s := by
  have harguments := append_argumentsOf (s.dropWhile inBareRadicand)
  rw [radicandOf, List.append_assoc, harguments, List.takeWhile_append_dropWhile]

theorem matched_run (hrun : ∀ c ∈ t, inBareRadicand c = true) : Matched t :=
  matched_of_not_mem (fun h => by cases hrun '(' h) fun h => by cases hrun ')' h

theorem matched_radicandOf (s : List Char) : Matched (radicandOf s).1 :=
  (matched_run fun _ => List.mem_takeWhile_imp).append (matched_argumentsOf _)

theorem matched_name : Matched "sqrt".toList := rfl

theorem bare_name : ∀ c ∈ "sqrt".toList, inBareRadicand c = true := by
  have hname : "sqrt".toList.all inBareRadicand = true := rfl
  exact List.all_eq_true.mp hname

/-- A root with its parenthesis can be a radicand itself. -/
theorem radicandOf_call (h : Matched t) (rest : List Char) :
    radicandOf ("sqrt".toList ++ ('(' :: t ++ ')' :: rest)) =
      ("sqrt".toList ++ ('(' :: t ++ [')']), rest) := by
  have hopening : Stops inBareRadicand ('(' :: t ++ ')' :: rest) := stops_cons.mpr rfl
  rw [radicandOf_append bare_name hopening, argumentsOf_group h]

theorem wrapRadicand_of_not_stops (h : ¬ Stops inBareRadicand (s.dropWhile isInlineBlank)) :
    wrapRadicand s = '(' :: (radicandOf (s.dropWhile isInlineBlank)).1 ++
      ')' :: (radicandOf (s.dropWhile isInlineBlank)).2 := by
  unfold wrapRadicand
  generalize s.dropWhile isInlineBlank = s' at h
  cases s' with
  | nil => exact absurd (stops_nil _) h
  | cons c s' =>
    have hc : inBareRadicand c = true := by simpa [stops_cons] using h
    rw [run?, if_pos hc, radicandOf_cons hc, radicandOf, argumentsOf]
    cases harguments : parenthesis? (s'.dropWhile inBareRadicand) <;> simp [harguments]

/-! ## The tree -/

/-- A text in which the parentheses written around radicands are told from all others. -/
inductive Wrapped where
  /-- The end of the text. -/
  | done
  /-- A character that stands as it stood. -/
  | char (c : Char) (rest : Wrapped)
  /-- A root with parentheses around its radicand, where blanks stood before the radicand. -/
  | call (gap : List Char) (radicand rest : Wrapped)

namespace Wrapped

/-- The text without the parentheses that were written, and with the blanks that were dropped. -/
def original : Wrapped → List Char
  | done => []
  | char c rest => c :: rest.original
  | call gap radicand rest => "sqrt".toList ++ (gap ++ (radicand.original ++ rest.original))

/-- The text as it was written. -/
def written : Wrapped → List Char
  | done => []
  | char c rest => c :: rest.written
  | call _ radicand rest => "sqrt".toList ++ ('(' :: radicand.written ++ ')' :: rest.written)

/-- The calls that were written, each as a text of its own. -/
def calls : Wrapped → List (List Char)
  | done => []
  | char _ rest => rest.calls
  | call _ radicand rest =>
    ("sqrt".toList ++ ('(' :: radicand.written ++ [')'])) :: (radicand.calls ++ rest.calls)

/-- Only blanks on one line were dropped, and what was put into parentheses is matched. -/
def Sound : Wrapped → Prop
  | done => True
  | char _ rest => rest.Sound
  | call gap radicand rest =>
    (∀ c ∈ gap, isInlineBlank c = true) ∧ Matched radicand.written ∧ radicand.Sound ∧ rest.Sound

/-- One text after the other. -/
def append : Wrapped → Wrapped → Wrapped
  | done, w => w
  | char c rest, w => char c (rest.append w)
  | call gap radicand rest, w => call gap radicand (rest.append w)

/-- A text in which nothing was written. -/
def plain : List Char → Wrapped
  | [] => done
  | c :: s => char c (plain s)

variable {v w : Wrapped}

@[simp] theorem original_append (v w : Wrapped) : (v.append w).original = v.original ++ w.original := by
  induction v with
  | done => rfl
  | char c rest ih => rw [append, original, ih, original, List.cons_append]
  | call gap radicand rest _ ih => simp only [append, original, ih, List.append_assoc]

@[simp] theorem written_append (v w : Wrapped) : (v.append w).written = v.written ++ w.written := by
  induction v with
  | done => rfl
  | char c rest ih => rw [append, written, ih, written, List.cons_append]
  | call gap radicand rest _ ih =>
    simp only [append, written, ih, List.append_assoc, List.cons_append]

@[simp] theorem calls_append (v w : Wrapped) : (v.append w).calls = v.calls ++ w.calls := by
  induction v with
  | done => rfl
  | char c rest ih => rw [append, calls, ih, calls]
  | call gap radicand rest _ ih => simp only [append, calls, ih, List.append_assoc, List.cons_append]

@[simp] theorem sound_append : (v.append w).Sound ↔ v.Sound ∧ w.Sound := by
  induction v with
  | done => simp [append, Sound]
  | char c rest ih => exact ih
  | call gap radicand rest _ ih => simp only [append, Sound, ih, and_assoc]

@[simp] theorem original_plain (s : List Char) : (plain s).original = s := by
  induction s with
  | nil => rfl
  | cons c s ih => rw [plain, original, ih]

@[simp] theorem written_plain (s : List Char) : (plain s).written = s := by
  induction s with
  | nil => rfl
  | cons c s ih => rw [plain, written, ih]

@[simp] theorem calls_plain (s : List Char) : (plain s).calls = [] := by
  induction s with
  | nil => rfl
  | cons c s ih => exact ih

@[simp] theorem sound_plain (s : List Char) : (plain s).Sound := by
  induction s with
  | nil => trivial
  | cons c s ih => exact ih

/-- A call that was written stands in the text. -/
theorem infix_of_mem_calls {piece : List Char} (h : piece ∈ w.calls) : piece <:+: w.written := by
  induction w with
  | done => cases h
  | char c rest ih => exact (ih h).trans (List.suffix_cons c _).isInfix
  | call gap radicand rest ihradicand ihrest =>
    rw [written]
    obtain rfl | h := List.mem_cons.mp h
    · exact ⟨[], rest.written, by simp⟩
    · obtain h | h := List.mem_append.mp h
      · refine (ihradicand h).trans ⟨"sqrt(".toList, ')' :: rest.written, ?_⟩
        simp
      · refine (ihrest h).trans ⟨"sqrt".toList ++ '(' :: radicand.written ++ [')'], [], ?_⟩
        simp

/-- The parentheses that were written are matched, so the depth is that of the original text. -/
theorem Sound.openAfter?_written (h : w.Sound) (n : Nat) :
    openAfter? n w.written = openAfter? n w.original := by
  induction w generalizing n with
  | done => rfl
  | char c rest ih =>
    have hself (s : List Char) : openAfter? n (c :: s) = (openAfter? n [c]).bind fun m => openAfter? m s :=
      openAfter?_append n [c] s
    rw [written, original, hself, hself rest.original]
    exact congrArg _ (funext fun m => ih h m)
  | call gap radicand rest ihradicand ihrest =>
    obtain ⟨hgap, hmatched, hradicand, hrest⟩ := h
    have hblank : Matched gap :=
      matched_of_not_mem (fun hmem => by cases hgap '(' hmem) fun hmem => by cases hgap ')' hmem
    have hgroup := hmatched.group.openAfter? n
    rw [written, original, openAfter?_append, openAfter?_append n "sqrt".toList, matched_name.openAfter? n,
      Option.bind_some, Option.bind_some, List.append_cons, openAfter?_append, hgroup, openAfter?_append,
      hblank.openAfter? n, Option.bind_some, Option.bind_some, openAfter?_append, ← ihradicand hradicand,
      hmatched.openAfter? n, Option.bind_some, ihrest hrest]

/-! ## Cutting the text -/

theorem exists_gap (w : Wrapped) : ∃ rest, w = (plain (w.written.takeWhile isInlineBlank)).append rest ∧
    rest.written = w.written.dropWhile isInlineBlank := by
  induction w with
  | done => exact ⟨done, rfl, rfl⟩
  | char c rest ih =>
    by_cases hc : isInlineBlank c = true
    · obtain ⟨rest', hrest, hwritten⟩ := ih
      refine ⟨rest', ?_, ?_⟩
      · rw [written, List.takeWhile_cons_of_pos hc, plain, append, ← hrest]
      · rw [written, List.dropWhile_cons_of_pos hc, hwritten]
    · refine ⟨char c rest, ?_, ?_⟩
      · rw [written, List.takeWhile_cons_of_neg hc, plain, append]
      · rw [written, List.dropWhile_cons_of_neg hc]
  | call gap radicand rest _ _ => exact ⟨call gap radicand rest, rfl, rfl⟩

/-- The parenthesis that closes an open one does not belong to a call, or ends it. -/
theorem exists_closing (h : w.Sound) {n : Nat} {inside rest : List Char}
    (hclosing : closing? n w.written = some (inside, rest)) :
    ∃ u v : Wrapped, w = u.append v ∧ u.written = inside ∧ v.written = rest := by
  induction w generalizing n inside with
  | done => cases hclosing
  | char c w ih =>
    have hcut {n : Nat} {inside : List Char}
        (hfound : (closing? n w.written).map (fun (inside, rest) => (c :: inside, rest)) =
          some (inside, rest)) :
        ∃ u v : Wrapped, char c w = u.append v ∧ u.written = inside ∧ v.written = rest := by
      obtain ⟨⟨inside', rest'⟩, hinside, heq⟩ := Option.map_eq_some_iff.mp hfound
      obtain ⟨rfl, rfl⟩ := Prod.mk.inj heq
      obtain ⟨u, v, rfl, rfl, hv⟩ := ih h hinside
      exact ⟨char c u, v, rfl, rfl, hv⟩
    rw [written] at hclosing
    by_cases hc : c = ')'
    · subst hc
      cases n with
      | zero =>
        obtain ⟨rfl, rfl⟩ := Prod.mk.inj (Option.some.inj hclosing)
        exact ⟨char ')' done, w, rfl, rfl, rfl⟩
      | succ n => exact hcut hclosing
    · rw [closing?_cons hc] at hclosing
      exact hcut hclosing
  | call gap radicand w _ ih =>
    obtain ⟨hgap, hmatched, hradicand, hw⟩ := h
    rw [written, List.append_cons, ← List.append_assoc,
      closing?_append ((matched_name.append hmatched.group).openAfter? n)] at hclosing
    obtain ⟨⟨inside', rest'⟩, hinside, heq⟩ := Option.map_eq_some_iff.mp hclosing
    obtain ⟨rfl, rfl⟩ := Prod.mk.inj heq
    obtain ⟨u, v, rfl, rfl, hv⟩ := ih hw hinside
    refine ⟨call gap radicand u, v, rfl, ?_, hv⟩
    simp [written]

theorem exists_arguments (h : w.Sound) :
    ∃ u v : Wrapped, w = u.append v ∧ (u.written, v.written) = argumentsOf w.written := by
  cases hread : parenthesis? w.written with
  | none =>
    refine ⟨done, w, rfl, ?_⟩
    rw [argumentsOf, hread]
    rfl
  | some found =>
    rw [argumentsOf, hread, Option.getD_some]
    unfold parenthesis? at hread
    split at hread
    · next s hopening =>
      cases w with
      | done => cases hopening
      | char c w =>
        obtain ⟨rfl, rfl⟩ := List.cons.inj hopening
        obtain ⟨⟨inside, rest⟩, hclosing, rfl⟩ := Option.map_eq_some_iff.mp hread
        obtain ⟨u, v, rfl, rfl, rfl⟩ := exists_closing (w := w) h hclosing
        exact ⟨char '(' u, v, rfl, rfl⟩
      | call gap radicand w => cases (List.cons.inj hopening).1
    · cases hread

theorem exists_radicand (h : w.Sound) :
    ∃ u v : Wrapped, w = u.append v ∧ (u.written, v.written) = radicandOf w.written := by
  induction w with
  | done => exact ⟨done, done, rfl, rfl⟩
  | char c w ih =>
    by_cases hc : inBareRadicand c = true
    · obtain ⟨u, v, rfl, huv⟩ := ih h
      refine ⟨char c u, v, rfl, ?_⟩
      have hread : radicandOf (char c (u.append v)).written = _ := radicandOf_cons hc _
      rw [hread, ← huv]
      rfl
    · have hstop : Stops inBareRadicand (char c w).written :=
        stops_cons.mpr (Bool.eq_false_iff.mpr hc)
      have hread := radicandOf_append (t := []) (by simp) hstop
      rw [List.nil_append] at hread
      rw [hread]
      exact exists_arguments h
  | call gap radicand w _ _ =>
    -- The run is the name of the root, and the parenthesis after it is the one that was written.
    obtain ⟨-, hmatched, -⟩ := h
    refine ⟨call gap radicand done, w, rfl, ?_⟩
    exact (radicandOf_call hmatched w.written).symm

/-! ## One more root -/

/-- A root in front of the text is wrapped, and all calls stay. If its radicand is bare, it becomes a
call itself. -/
theorem exists_root (h : w.Sound) :
    ∃ v : Wrapped, v.Sound ∧ v.original = "sqrt".toList ++ w.original ∧
      v.written = "sqrt".toList ++ wrapRadicand w.written ∧ w.calls ⊆ v.calls ∧
      (¬ Stops inBareRadicand (w.written.dropWhile isInlineBlank) →
        "sqrt".toList ++ ('(' :: (radicandOf (w.written.dropWhile isInlineBlank)).1 ++ [')']) ∈ v.calls) := by
  by_cases hstop : Stops inBareRadicand (w.written.dropWhile isInlineBlank)
  · refine ⟨(plain "sqrt".toList).append w, by simp [h], by simp, ?_, by simp, absurd hstop⟩
    rw [written_append, written_plain, wrapRadicand_eq_self hstop]
  · obtain ⟨w', hw, hwritten⟩ := w.exists_gap
    have hgap : ∀ c ∈ w.written.takeWhile isInlineBlank, isInlineBlank c = true :=
      fun c => List.mem_takeWhile_imp
    rw [wrapRadicand_of_not_stops hstop, ← hwritten]
    generalize w.written.takeWhile isInlineBlank = gap at hw hgap
    subst hw
    obtain ⟨u, v, rfl, huv⟩ := exists_radicand (sound_append.mp h).2
    obtain ⟨hu, hv⟩ := sound_append.mp (sound_append.mp h).2
    have hmatched := matched_radicandOf (u.append v).written
    rw [← huv] at hmatched ⊢
    refine ⟨call gap u v, ⟨hgap, hmatched, hu, hv⟩, by simp [original], rfl, ?_, fun _ => by simp [calls]⟩
    simp [calls]

end Wrapped

end AnswerCheck.Spelling
