import AnswerCheck.Proofs.Text.Replacing
import AnswerCheck.Proofs.Text.Splitting

/-! # Trimmed texts and their lines

Blanks at the end of a text change its last line only, by blanks, and add lines of blanks. Blanks at
its start are whole lines and the beginning of the first line that is not blank.
-/

set_option autoImplicit false

namespace AnswerCheck.Text

variable {s t left right : List Char}

def isBlankLine (line : List Char) : Bool :=
  line.all isBlank

/-! ## Lines -/

theorem lines_cases (s : List Char) :
    '\n' ∉ s ∧ lines s = [s] ∨
      ∃ left right, s = left ++ '\n' :: right ∧ '\n' ∉ left ∧ lines s = left :: lines right :=
  splitOn_cases '\n' s

theorem lines_of_not_mem (h : '\n' ∉ s) : lines s = [s] :=
  List.splitOn_eq_singleton h

theorem lines_append (h : '\n' ∉ left) (s : List Char) :
    lines (left ++ '\n' :: s) = left :: lines s :=
  List.splitOn_append_cons_self_of_not_mem h s

/-- Induction on the lines of a text. -/
@[elab_as_elim]
theorem lines_induction {P : List Char → Prop} (last : ∀ s, '\n' ∉ s → P s)
    (more : ∀ left right, '\n' ∉ left → P right → P (left ++ '\n' :: right)) (s : List Char) : P s := by
  induction hn : s.length using Nat.strongRecOn generalizing s with
  | ind n ih =>
    obtain ⟨hs, -⟩ | ⟨left, right, rfl, hleft, -⟩ := lines_cases s
    · exact last s hs
    · exact more left right hleft (ih right.length (by simp [← hn]; omega) right rfl)

theorem lines_concat (s : List Char) (c : Char) :
    ∃ front last, lines s = front ++ [last] ∧
      lines (s ++ [c]) = front ++ if c = '\n' then [last, []] else [last ++ [c]] := by
  induction s using lines_induction with
  | last s hs =>
    refine ⟨[], s, lines_of_not_mem hs, ?_⟩
    split
    · next hc =>
      rw [hc, lines_append hs]
      rfl
    · next hc => exact lines_of_not_mem (by simp [hs, Ne.symm hc])
  | more left right hleft ih =>
    obtain ⟨front, last, hlines, hconcat⟩ := ih
    refine ⟨left :: front, last, ?_, ?_⟩
    · rw [lines_append hleft, hlines, List.cons_append]
    · rw [List.append_assoc, List.cons_append, lines_append hleft, hconcat, List.cons_append]

/-! ## Replacing lines -/

section Replacing

variable {rule : Recognizer (List Char)} {out : List Char}

theorem replaceLinesFrom_of_not_mem (h : '\n' ∉ s) : replaceLinesFrom rule false 0 s = s := by
  induction s with
  | nil => rfl
  | cons c s ih =>
    obtain ⟨hc, hs⟩ := not_or.mp (List.mem_cons.not.mp h)
    rw [replaceLinesFrom, decide_eq_false (Ne.symm hc), ih hs]
    rfl

theorem replaceLinesFrom_append (h : '\n' ∉ left) (s : List Char) :
    replaceLinesFrom rule false 0 (left ++ '\n' :: s) = left ++ '\n' :: replaceLines rule s := by
  induction left with
  | nil => rfl
  | cons c left ih =>
    obtain ⟨hc, hleft⟩ := not_or.mp (List.mem_cons.not.mp h)
    rw [List.cons_append, replaceLinesFrom, decide_eq_false (Ne.symm hc), ih hleft]
    rfl

/-- What a match took is passed over. After a line feed the next match may start. -/
theorem replaceLinesFrom_skip (starts : Bool) (used s : List Char) :
    replaceLinesFrom rule starts (used.length + 1) (used ++ '\n' :: s) = replaceLines rule s := by
  induction used generalizing starts with
  | nil => rfl
  | cons c used ih => exact ih _

theorem replaceLinesFrom_length (starts : Bool) (s : List Char) :
    replaceLinesFrom rule starts s.length s = [] := by
  induction s generalizing starts with
  | nil => rfl
  | cons c s ih => exact ih _

theorem replaceLines_none_of_not_mem (h : '\n' ∉ s) (hnone : rule s = none) : replaceLines rule s = s := by
  cases s with
  | nil => rfl
  | cons c s =>
    obtain ⟨hc, hs⟩ := not_or.mp (List.mem_cons.not.mp h)
    rw [replaceLines, replaceLinesFrom, if_pos rfl, hnone, decide_eq_false (Ne.symm hc)]
    exact congrArg _ (replaceLinesFrom_of_not_mem hs)

theorem replaceLines_some_of_all (hne : s ≠ []) (hsome : rule s = some (out, [])) :
    replaceLines rule s = out := by
  obtain ⟨c, s, rfl⟩ := List.exists_cons_of_ne_nil hne
  rw [replaceLines, replaceLinesFrom, if_pos rfl, hsome]
  exact (congrArg (out ++ ·) (replaceLinesFrom_length _ s)).trans (List.append_nil out)

theorem replaceLines_none (h : '\n' ∉ left) (hnone : rule (left ++ '\n' :: s) = none) :
    replaceLines rule (left ++ '\n' :: s) = left ++ '\n' :: replaceLines rule s := by
  cases left with
  | nil =>
    rw [List.nil_append] at hnone ⊢
    rw [replaceLines, replaceLinesFrom, if_pos rfl, hnone]
    rfl
  | cons c left =>
    obtain ⟨hc, hleft⟩ := not_or.mp (List.mem_cons.not.mp h)
    rw [List.cons_append] at hnone ⊢
    rw [replaceLines, replaceLinesFrom, if_pos rfl, hnone, decide_eq_false (Ne.symm hc)]
    exact congrArg _ (replaceLinesFrom_append hleft s)

theorem replaceLines_some (hsome : rule (left ++ '\n' :: s) = some (out, s)) :
    replaceLines rule (left ++ '\n' :: s) = out ++ replaceLines rule s := by
  cases left with
  | nil =>
    rw [List.nil_append] at hsome ⊢
    rw [replaceLines, replaceLinesFrom, if_pos rfl, hsome]
    simp only [Nat.sub_self]
    rfl
  | cons c left =>
    have hlength : (left ++ '\n' :: s).length - s.length = left.length + 1 := by
      rw [List.length_append, List.length_cons]
      omega
    rw [List.cons_append] at hsome ⊢
    rw [replaceLines, replaceLinesFrom, if_pos rfl, hsome]
    simp only [hlength, replaceLinesFrom_skip]

end Replacing

/-! ## A property of some line -/

def SomeLine (p : List Char → Bool) (s : List Char) : Prop :=
  (lines s).any p = true

variable {p : List Char → Bool}

theorem someLine_of_not_mem (h : '\n' ∉ s) : SomeLine p s ↔ p s = true := by
  simp [SomeLine, lines_of_not_mem h]

theorem someLine_append (h : '\n' ∉ left) (s : List Char) :
    SomeLine p (left ++ '\n' :: s) ↔ p left = true ∨ SomeLine p s := by
  simp [SomeLine, lines_append h]

/-- If blanks at the end of a line make no difference and no blank line has the property, then blanks
at the end of the text make none. -/
theorem someLine_append_blanks (hend : ∀ line c, isBlank c = true → p (line ++ [c]) = p line)
    (hnil : p [] = false) (ht : ∀ c ∈ t, isBlank c = true) (s : List Char) :
    SomeLine p (s ++ t) ↔ SomeLine p s := by
  induction t generalizing s with
  | nil => rw [List.append_nil]
  | cons c t ih =>
    obtain ⟨hc, ht⟩ := List.forall_mem_cons.mp ht
    rw [List.append_cons, ih ht]
    obtain ⟨front, last, hlines, hconcat⟩ := lines_concat s c
    simp only [SomeLine, hlines, hconcat]
    split
    · simp [hnil]
    · simp [hend last c hc]

theorem dropWhile_append_of_not_all {q : Char → Bool} (h : ¬ s.all q = true) (t : List Char) :
    (s ++ t).dropWhile q = s.dropWhile q ++ t := by
  rw [List.dropWhile_append, if_neg]
  rwa [List.isEmpty_iff, List.dropWhile_eq_nil_iff, ← List.all_eq_true]

/-- Without the blanks at the start of a text, its first line that is not blank comes first, without
the blanks at its start. -/
theorem someLine_dropWhile_isBlank (hnil : p [] = false) (h : ¬ SomeLine p s) :
    SomeLine p (s.dropWhile isBlank) ↔
      ∃ line, (lines s).find? (!isBlankLine ·) = some line ∧ p (line.dropWhile isBlank) = true := by
  induction s using lines_induction with
  | last s hs =>
    have hdrop : '\n' ∉ s.dropWhile isBlank := fun hmem => hs (List.dropWhile_subset _ hmem)
    rw [someLine_of_not_mem hdrop, lines_of_not_mem hs, List.find?_singleton]
    by_cases hblank : isBlankLine s = true
    · have hempty : s.dropWhile isBlank = [] :=
        List.dropWhile_eq_nil_iff.mpr (List.all_eq_true.mp hblank)
      simp [hblank, hempty, hnil]
    · simp [hblank]
  | more left right hleft ih =>
    rw [someLine_append hleft, not_or] at h
    rw [lines_append hleft, List.find?_cons]
    by_cases hblank : isBlankLine left = true
    · have hdrop : (left ++ '\n' :: right).dropWhile isBlank = right.dropWhile isBlank := by
        rw [List.dropWhile_append_of_pos (List.all_eq_true.mp hblank)]
        rfl
      rw [hdrop, ih h.2, hblank]
      rfl
    · have hdrop : '\n' ∉ left.dropWhile isBlank := fun hmem => hleft (List.dropWhile_subset _ hmem)
      rw [dropWhile_append_of_not_all hblank, someLine_append hdrop]
      simp [hblank, h.2]

/-- What trimming a text makes of its lines. -/
theorem someLine_trim (hend : ∀ line c, isBlank c = true → p (line ++ [c]) = p line)
    (hnil : p [] = false) (h : ¬ SomeLine p s) :
    SomeLine p (trim s) ↔
      ∃ line, (lines s).find? (!isBlankLine ·) = some line ∧ p (line.dropWhile isBlank) = true := by
  obtain ⟨t, hs, ht⟩ := exists_eq_append_dropEndWhile isBlank (s.dropWhile isBlank)
  rw [← someLine_dropWhile_isBlank hnil h, trim, trimWhile]
  conv_rhs => rw [hs]
  exact (someLine_append_blanks hend hnil ht _).symm

end AnswerCheck.Text
