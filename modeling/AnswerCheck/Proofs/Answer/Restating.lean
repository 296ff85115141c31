import AnswerCheck.Proofs.Answer.ReadBack
import AnswerCheck.Proofs.Text.Lines

/-! # The lines of a restated answer

The line of the final answer comes first, and the lines that stated one before are gone. But what is
left is trimmed only then, and a line that starts with white space other than spaces and tabs states
nothing until it is: if it is the first one that is not blank, the answer states two final answers.
-/

set_option autoImplicit false

namespace AnswerCheck.Answer

open Text Decimal

variable {line s t left right : List Char}

/-! ## Lines that state a final answer -/

theorem afterCaseless?_eq_some {word s rest : List Char} :
    afterCaseless? word s = some rest ↔ ∃ read, s = read ++ rest ∧ read.map foldCase = word := by
  induction word generalizing s with
  | nil => simp [afterCaseless?]
  | cons w word ih =>
    cases s with
    | nil => simp [afterCaseless?]
    | cons c s =>
      rw [afterCaseless?]
      split
      · next hc =>
        rw [ih]
        constructor
        · rintro ⟨read, rfl, hread⟩
          exact ⟨c :: read, rfl, by rw [List.map_cons, hc, hread]⟩
        · rintro ⟨read, hs, hread⟩
          cases read with
          | nil => cases hread
          | cons d read =>
            obtain ⟨rfl, rfl⟩ := List.cons.inj hs
            exact ⟨read, rfl, (List.cons.inj hread).2⟩
      · next hc =>
        constructor
        · intro h
          cases h
        · rintro ⟨read, hs, hread⟩
          cases read with
          | nil => cases hread
          | cons d read =>
            obtain ⟨rfl, rfl⟩ := List.cons.inj hs
            exact absurd (List.cons.inj hread).1 hc

theorem stops_isDecoration {words : List Char} (h : words.map foldCase = "final answer".toList)
    (rest : List Char) : Stops isDecoration (words ++ rest) := by
  cases words with
  | nil => cases h
  | cons c words =>
    refine stops_cons.mpr ?_
    have hc : foldCase c = 'f' := (List.cons.inj h).1
    rw [Bool.eq_false_iff]
    intro hdecoration
    simp only [isDecoration, Bool.or_eq_true, decide_eq_true_eq] at hdecoration
    obtain ((((((rfl | rfl) | rfl) | rfl) | rfl) | rfl) | rfl) | rfl := hdecoration <;> cases hc

/-- A line states a final answer if it starts with decoration, the words, emphasis, spaces or tabs,
and a colon. -/
theorem statesFinalAnswer_iff : statesFinalAnswer line = true ↔
    ∃ decoration words emphasis spaces rest,
      line = decoration ++ (words ++ (emphasis ++ (spaces ++ ':' :: rest))) ∧
      (∀ c ∈ decoration, isDecoration c = true) ∧ words.map foldCase = "final answer".toList ∧
      (∀ c ∈ emphasis, c = '*' ∨ c = '_') ∧ (∀ c ∈ spaces, c = ' ' ∨ c = '\t') := by
  constructor
  · intro h
    unfold statesFinalAnswer at h
    split at h
    · cases h
    · next after hafter =>
      obtain ⟨words, hwords, hfold⟩ := afterCaseless?_eq_some.mp hafter
      obtain ⟨rest, hrest⟩ := List.head?_eq_some_iff.mp (of_decide_eq_true h)
      refine ⟨line.takeWhile isDecoration, words, after.takeWhile fun c => c = '*' || c = '_',
        (after.dropWhile fun c => c = '*' || c = '_').takeWhile fun c => c = ' ' || c = '\t', rest,
        ?_, fun c => List.mem_takeWhile_imp, hfold, fun c hc => ?_, fun c hc => ?_⟩
      · rw [← hrest, List.takeWhile_append_dropWhile, List.takeWhile_append_dropWhile, ← hwords,
          List.takeWhile_append_dropWhile]
      · simpa using List.mem_takeWhile_imp hc
      · simpa using List.mem_takeWhile_imp hc
  · rintro ⟨decoration, words, emphasis, spaces, rest, rfl, hdecoration, hwords, hemphasis, hspaces⟩
    have hafter : afterCaseless? "final answer".toList
        (words ++ (emphasis ++ (spaces ++ ':' :: rest))) =
          some (emphasis ++ (spaces ++ ':' :: rest)) :=
      afterCaseless?_eq_some.mpr ⟨words, rfl, hwords⟩
    have hstop : Stops (fun c => c = '*' || c = '_') (spaces ++ ':' :: rest) := by
      refine stops_append (fun c hc => ?_) (stops_cons.mpr rfl)
      obtain rfl | rfl := hspaces c (List.mem_of_mem_head? hc) <;> rfl
    have hcolon : Stops (fun c => c = ' ' || c = '\t') (':' :: rest) := stops_cons.mpr rfl
    rw [statesFinalAnswer, dropWhile_append hdecoration (stops_isDecoration hwords _), hafter]
    simp only [dropWhile_append (p := fun c => c = '*' || c = '_') (by simpa using hemphasis) hstop,
      dropWhile_append (p := fun c => c = ' ' || c = '\t') (by simpa using hspaces) hcolon]
    rfl

theorem statesFinalAnswer_nil : statesFinalAnswer [] = false := rfl

theorem statesFinalAnswer_append (ht : ':' ∉ t) (line : List Char) :
    statesFinalAnswer (line ++ t) = statesFinalAnswer line := by
  rw [Bool.eq_iff_iff, statesFinalAnswer_iff, statesFinalAnswer_iff]
  constructor
  · rintro ⟨decoration, words, emphasis, spaces, rest, h, hparts⟩
    -- The colon cannot stand in what is appended, so the line goes at least as far.
    have hsplit : line ++ t = (decoration ++ words ++ emphasis ++ spaces) ++ ':' :: rest := by
      simpa using h
    obtain ⟨more, -, ht'⟩ | ⟨more, hline, hmore⟩ := List.append_eq_append_iff.mp hsplit
    · exact absurd (ht' ▸ List.mem_append_right more List.mem_cons_self) ht
    · cases more with
      | nil => exact absurd (by simp [← show ':' :: rest = t from hmore]) ht
      | cons c more =>
        obtain ⟨rfl, -⟩ := List.cons.inj hmore
        exact ⟨decoration, words, emphasis, spaces, more, by simpa using hline, hparts⟩
  · rintro ⟨decoration, words, emphasis, spaces, rest, rfl, hparts⟩
    exact ⟨decoration, words, emphasis, spaces, rest ++ t, by simp, hparts⟩

/-! ## The other lines -/

/-- The lines of a text, each with its line feed; only the last one may lack it. -/
def fullLines : List Char → List (List Char)
  | [] => []
  | c :: s =>
    if c = '\n' then [c] :: fullLines s
    else
      match fullLines s with
      | [] => [[c]]
      | line :: more => (c :: line) :: more

/-- The text without the lines that state a final answer. -/
def otherLines (s : List Char) : List Char :=
  ((fullLines s).filter (!statesFinalAnswer ·)).flatten

theorem fullLines_append (h : '\n' ∉ left) (s : List Char) :
    fullLines (left ++ '\n' :: s) = (left ++ ['\n']) :: fullLines s := by
  induction left with
  | nil => rfl
  | cons c left ih =>
    obtain ⟨hc, hleft⟩ := not_or.mp (List.mem_cons.not.mp h)
    rw [List.cons_append, fullLines, if_neg (Ne.symm hc), ih hleft]
    rfl

theorem fullLines_of_not_mem (h : '\n' ∉ s) (hne : s ≠ []) : fullLines s = [s] := by
  induction s with
  | nil => exact absurd rfl hne
  | cons c s ih =>
    obtain ⟨hc, hs⟩ := not_or.mp (List.mem_cons.not.mp h)
    rw [fullLines, if_neg (Ne.symm hc)]
    cases s with
    | nil => rfl
    | cons d s => rw [ih hs (List.cons_ne_nil d s)]

theorem otherLines_of_not_mem (h : '\n' ∉ s) :
    otherLines s = if statesFinalAnswer s then [] else s := by
  by_cases hne : s = []
  · rw [hne]
    rfl
  · rw [otherLines, fullLines_of_not_mem h hne, List.filter_cons]
    cases statesFinalAnswer s <;> simp

theorem otherLines_append (h : '\n' ∉ left) (s : List Char) :
    otherLines (left ++ '\n' :: s) =
      (if statesFinalAnswer left then [] else left ++ ['\n']) ++ otherLines s := by
  have hend : statesFinalAnswer (left ++ ['\n']) = statesFinalAnswer left :=
    statesFinalAnswer_append (by simp) left
  rw [otherLines, fullLines_append h, List.filter_cons, hend, otherLines]
  cases statesFinalAnswer left <;> simp

/-- The words that state a final answer hold no line feed, so the lines after them do not matter. -/
theorem statesFinalAnswer_line (h : '\n' ∉ left) (right : List Char) :
    statesFinalAnswer (left ++ '\n' :: right) = statesFinalAnswer left := by
  rw [Bool.eq_iff_iff, statesFinalAnswer_iff, statesFinalAnswer_iff]
  constructor
  · rintro ⟨decoration, words, emphasis, spaces, rest, hline, hdecoration, hwords, hemphasis, hspaces⟩
    have hfeed : '\n' ∉ decoration ++ words ++ emphasis ++ spaces := by
      simp only [List.mem_append, not_or]
      refine ⟨⟨⟨fun hmem => ?_, fun hmem => ?_⟩, fun hmem => ?_⟩, fun hmem => ?_⟩
      · cases hdecoration _ hmem
      · have hfold : foldCase '\n' ∈ "final answer".toList := hwords ▸ List.mem_map_of_mem hmem
        revert hfold
        decide
      · obtain hc | hc := hemphasis _ hmem <;> cases hc
      · obtain hc | hc := hspaces _ hmem <;> cases hc
    have hsplit : left ++ '\n' :: right = (decoration ++ words ++ emphasis ++ spaces) ++ ':' :: rest := by
      simpa using hline
    obtain ⟨more, hfront, hmore⟩ | ⟨more, hleft, hmore⟩ := List.append_eq_append_iff.mp hsplit
    · cases more with
      | nil => cases hmore
      | cons c more =>
        obtain ⟨rfl, -⟩ := List.cons.inj hmore
        exact absurd (hfront ▸ List.mem_append_right left List.mem_cons_self) hfeed
    · cases more with
      | nil => cases hmore
      | cons c more =>
        obtain ⟨rfl, -⟩ := List.cons.inj hmore
        exact ⟨decoration, words, emphasis, spaces, more, by simpa using hleft, hdecoration, hwords,
          hemphasis, hspaces⟩
  · rintro ⟨decoration, words, emphasis, spaces, rest, rfl, hparts⟩
    exact ⟨decoration, words, emphasis, spaces, rest ++ '\n' :: right, by simp, hparts⟩

/-- Read from left to right, the text loses the lines that state a final answer. -/
theorem replaceLines_statedLine (s : List Char) : replaceLines statedLine? s = otherLines s := by
  induction s using lines_induction with
  | last s hs =>
    rw [otherLines_of_not_mem hs]
    split
    · next hstates =>
      have hne : s ≠ [] := by
        rintro rfl
        cases hstates
      have hdrop : s.dropWhile (· != '\n') = [] := by
        rw [List.dropWhile_eq_nil_iff]
        exact bne_of_not_mem hs
      refine replaceLines_some_of_all hne ?_
      rw [statedLine?, if_pos hstates, hdrop, List.drop_nil]
    · next hstates => exact replaceLines_none_of_not_mem hs (if_neg hstates)
  | more left right hleft ih =>
    have hline := statesFinalAnswer_line hleft right
    rw [otherLines_append hleft, ← ih]
    split
    · next hstates =>
      have hfeed : Stops (· != '\n') ('\n' :: right) := stops_cons.mpr rfl
      refine replaceLines_some ?_
      rw [statedLine?, if_pos (hline.trans hstates), dropWhile_append (bne_of_not_mem hleft) hfeed,
        List.drop_one, List.tail_cons]
    · next hstates =>
      have hnone : statedLine? (left ++ '\n' :: right) = none := if_neg (hline ▸ hstates)
      rw [replaceLines_none hleft hnone, List.append_assoc, List.singleton_append]

theorem not_someLine_otherLines (s : List Char) : ¬ SomeLine statesFinalAnswer (otherLines s) := by
  induction s using lines_induction with
  | last s hs =>
    rw [otherLines_of_not_mem hs]
    split
    · rw [someLine_of_not_mem (by simp)]
      simp [statesFinalAnswer_nil]
    · next h => rwa [someLine_of_not_mem hs]
  | more left right hleft ih =>
    rw [otherLines_append hleft]
    split
    · exact ih
    · next h =>
      rw [List.append_assoc, List.singleton_append, someLine_append hleft]
      exact not_or.mpr ⟨h, ih⟩

/-- The first line that is not blank, and states no final answer. -/
def firstOther? (s : List Char) : Option (List Char) :=
  (lines s).find? fun line => !statesFinalAnswer line && !isBlankLine line

theorem find?_otherLines (s : List Char) :
    (lines (otherLines s)).find? (!isBlankLine ·) = firstOther? s := by
  induction s using lines_induction with
  | last s hs =>
    rw [otherLines_of_not_mem hs, firstOther?, lines_of_not_mem hs]
    cases h : statesFinalAnswer s with
    | true => simp [h, lines_of_not_mem, isBlankLine]
    | false => simp [h, lines_of_not_mem hs]
  | more left right hleft ih =>
    rw [otherLines_append hleft, firstOther?, lines_append hleft, List.find?_cons]
    cases h : statesFinalAnswer left with
    | true =>
      rw [if_pos rfl, List.nil_append, ih]
      rfl
    | false =>
      rw [if_neg (by simp), List.append_assoc, List.singleton_append, lines_append hleft,
        List.find?_cons, ih]
      rfl

theorem otherLines_eq_self (h : ¬ SomeLine statesFinalAnswer s) : otherLines s = s := by
  induction s using lines_induction with
  | last s hs =>
    rw [someLine_of_not_mem hs] at h
    rw [otherLines_of_not_mem hs, if_neg h]
  | more left right hleft ih =>
    obtain ⟨hstates, hright⟩ := not_or.mp ((someLine_append hleft right).not.mp h)
    rw [otherLines_append hleft, if_neg hstates, ih hright, List.append_assoc, List.singleton_append]

theorem length_otherLines_le (s : List Char) : (otherLines s).length ≤ s.length := by
  induction s using lines_induction with
  | last s hs =>
    rw [otherLines_of_not_mem hs]
    split
    · exact Nat.zero_le _
    · exact Nat.le_refl _
  | more left right hleft ih =>
    rw [otherLines_append hleft]
    split <;>
    · simp only [List.length_append, List.length_cons, List.length_nil]
      omega

theorem length_otherLines_lt (h : SomeLine statesFinalAnswer s) :
    (otherLines s).length < s.length := by
  induction s using lines_induction with
  | last s hs =>
    rw [someLine_of_not_mem hs] at h
    rw [otherLines_of_not_mem hs, if_pos h]
    cases s with
    | nil => cases h
    | cons c s => exact Nat.zero_lt_succ _
  | more left right hleft ih =>
    have hle := length_otherLines_le right
    rw [otherLines_append hleft]
    obtain hstates | hright := (someLine_append hleft right).mp h
    · rw [if_pos hstates, List.nil_append, List.length_append, List.length_cons]
      omega
    · have hlt := ih hright
      split <;>
      · simp only [List.length_append, List.length_cons, List.length_nil]
        omega

/-! ## Trimming -/

/-- The first line that is not blank and states no final answer states one without the white space
at its start. -/
def HidesFinalAnswer (s : List Char) : Prop :=
  ∃ line ∈ firstOther? s, statesFinalAnswer (line.dropWhile isBlank) = true

instance (s : List Char) : Decidable (HidesFinalAnswer s) :=
  inferInstanceAs (Decidable (∃ line ∈ firstOther? s, _))

/-- Spaces and tabs hide nothing. -/
theorem HidesFinalAnswer.exists_blank (h : HidesFinalAnswer s) :
    ∃ line ∈ lines s, ∃ c ∈ line.takeWhile isBlank, c ≠ ' ' ∧ c ≠ '\t' := by
  obtain ⟨line, hfirst, hstates⟩ := h
  refine ⟨line, List.mem_of_find?_eq_some hfirst, ?_⟩
  by_contra hspaces
  obtain ⟨decoration, words, emphasis, spaces, rest, hline, hdecoration, hparts⟩ :=
    statesFinalAnswer_iff.mp hstates
  have hstates' : statesFinalAnswer line = true := by
    refine statesFinalAnswer_iff.mpr ⟨line.takeWhile isBlank ++ decoration, words, emphasis, spaces,
      rest, ?_, fun c hc => ?_, hparts⟩
    · rw [List.append_assoc, ← hline, List.takeWhile_append_dropWhile]
    · obtain hc | hc := List.mem_append.mp hc
      · have hor : c = ' ' ∨ c = '\t' := by
          by_contra hne
          exact hspaces ⟨c, hc, not_or.mp hne⟩
        obtain rfl | rfl := hor <;> rfl
      · exact hdecoration c hc
  have hother := List.find?_some hfirst
  simp [hstates'] at hother

theorem withoutFinalLines_eq (s : List Char) : withoutFinalLines s = trim (otherLines s) := by
  rw [withoutFinalLines, replaceLines_statedLine]

theorem someLine_withoutFinalLines (s : List Char) :
    SomeLine statesFinalAnswer (withoutFinalLines s) ↔ HidesFinalAnswer s := by
  have hend : ∀ line c, isBlank c = true →
      statesFinalAnswer (line ++ [c]) = statesFinalAnswer line := by
    intro line c hc
    refine statesFinalAnswer_append ?_ line
    rw [List.mem_singleton]
    rintro rfl
    cases hc
  rw [HidesFinalAnswer, ← find?_otherLines, withoutFinalLines_eq]
  exact someLine_trim hend statesFinalAnswer_nil (not_someLine_otherLines s)

theorem withoutFinalLines_eq_self_iff (s : List Char) :
    withoutFinalLines (withoutFinalLines s) = withoutFinalLines s ↔ ¬ HidesFinalAnswer s := by
  rw [← someLine_withoutFinalLines]
  constructor
  · intro heq hsome
    obtain ⟨left, right, hparts, -⟩ :=
      exists_eq_append_trim (otherLines (withoutFinalLines s))
    have hlength := congrArg List.length hparts
    have hlt := length_otherLines_lt hsome
    rw [← withoutFinalLines_eq, heq, List.length_append, List.length_append] at hlength
    omega
  · intro hnone
    rw [withoutFinalLines_eq, otherLines_eq_self hnone]
    exact trim_eq_self (stops_trim _) (stops_trim_reverse _)

/-! ## The line on top -/

/-- A line with an empty line and a text below it. -/
def below (first others : List Char) : List Char :=
  if others.isEmpty then first else first ++ '\n' :: '\n' :: others

theorem toList_restate {roots : List Root} (hne : roots ≠ []) (text : String) :
    (restate text roots).toList = below (finalLine roots).toList (withoutFinalLines text.toList) := by
  rw [restate, if_neg (by simpa using hne)]
  simp only [below]
  by_cases hempty : (withoutFinalLines text.toList).isEmpty = true
  · rw [if_pos hempty, if_pos hempty]
  · rw [if_neg hempty, if_neg hempty, String.toList_append, String.toList_append,
      String.toList_ofList, String.toList_ofList, List.append_assoc]
    simp only [List.cons_append, List.nil_append]

theorem below_inj {first others others' : List Char} (h : below first others = below first others') :
    others = others' := by
  unfold below at h
  cases others with
  | nil =>
    cases others' with
    | nil => rfl
    | cons c others' => simp at h
  | cons c others =>
    cases others' with
    | nil => simp at h
    | cons c' others' => simpa using h

theorem lines_below {first : List Char} (hfirst : '\n' ∉ first) (others : List Char) :
    lines (below first others) = first :: if others.isEmpty then [] else [] :: lines others := by
  unfold below
  split
  · exact lines_of_not_mem hfirst
  · exact lines_append hfirst ('\n' :: others)

theorem withoutFinalLines_below {first : List Char} (hfirst : '\n' ∉ first)
    (hstates : statesFinalAnswer first = true) (others : List Char) :
    withoutFinalLines (below first others) = withoutFinalLines others := by
  unfold below
  split
  · next hempty =>
    rw [List.isEmpty_iff.mp hempty, withoutFinalLines_eq, otherLines_of_not_mem hfirst, if_pos hstates]
    rfl
  · rw [withoutFinalLines_eq, withoutFinalLines_eq others, otherLines_append hfirst, if_pos hstates]
    rfl

/-! ## The line of the final answer -/

theorem not_mem_calculatorText (x : Float) (places : Option Nat) :
    '\n' ∉ (calculatorText x places).toList := by
  by_cases hfinite : x.isFinite = true
  · obtain ⟨value, hnumeral⟩ := proseNumeral_calculatorText hfinite places
    exact hnumeral.not_mem rfl rfl
  · obtain h | h | h := calculatorText_of_not_isFinite hfinite places <;> rw [h] <;> decide

theorem not_mem_intercalate {c : Char} {sep : List Char} {texts : List (List Char)} (hsep : c ∉ sep)
    (htexts : ∀ t ∈ texts, c ∉ t) : c ∉ List.intercalate sep texts := by
  induction texts with
  | nil => simp
  | cons t texts ih =>
    obtain ⟨ht, htexts⟩ := List.forall_mem_cons.mp htexts
    cases texts with
    | nil => simpa using ht
    | cons u texts =>
      simp only [List.intercalate_cons_cons, List.mem_append, not_or]
      exact ⟨⟨ht, hsep⟩, ih htexts⟩

theorem eq_of_mem_assignmentsFrom {number : Nat} {texts : List String} {t : String}
    (h : t ∈ assignmentsFrom number texts) :
    ∃ label, IsDigits label ∧ ∃ shown ∈ texts, t.toList = 'x' :: label ++ '=' :: shown.toList := by
  induction texts generalizing number with
  | nil => cases h
  | cons shown texts ih =>
    obtain rfl | h := List.mem_cons.mp h
    · exact ⟨digits number, isDigits_digits number, shown, List.mem_cons_self, by simp [digits]⟩
    · obtain ⟨label, hlabel, shown', hmem, ht⟩ := ih h
      exact ⟨label, hlabel, shown', List.mem_cons_of_mem shown hmem, ht⟩

/-- The line of the final answer assigns the roots one after the other. -/
theorem toList_finalLine (roots : List Root) :
    ∃ texts, (finalLine roots).toList = "Final Answer: ".toList ++ List.intercalate [',', ' '] texts ∧
      (roots ≠ [] → texts ≠ []) ∧
      ∀ t ∈ texts, ∃ label, IsDigits label ∧ ∃ r ∈ roots, t = 'x' :: label ++ '=' :: r.shown.toList := by
  unfold finalLine
  split
  · next only honly =>
    obtain ⟨r, hr, rfl⟩ := mem_shownTexts.mp (honly ▸ List.mem_singleton_self only)
    refine ⟨['x' :: '=' :: r.shown.toList], ?_, fun _ => List.cons_ne_nil _ _, ?_⟩
    · rw [String.toList_append, List.intercalate_singleton]
      rfl
    · exact List.forall_mem_singleton.mpr ⟨[], by simp [IsDigits], r, hr, rfl⟩
  · refine ⟨(assignmentsFrom 1 (shownTexts roots)).map String.toList, ?_, fun hne => ?_, ?_⟩
    · rw [String.toList_append, String.toList_intercalate]
      rfl
    · obtain ⟨r, hr⟩ := List.exists_mem_of_ne_nil roots hne
      obtain ⟨shown, more, hshown⟩ :=
        List.exists_cons_of_ne_nil (List.ne_nil_of_mem (mem_shownTexts.mpr ⟨r, hr, rfl⟩))
      rw [hshown, assignmentsFrom]
      exact List.cons_ne_nil _ _
    · rw [List.forall_mem_map]
      intro t ht
      obtain ⟨label, hlabel, shown, hmem, heq⟩ := eq_of_mem_assignmentsFrom ht
      obtain ⟨r, hr, rfl⟩ := mem_shownTexts.mp hmem
      exact ⟨label, hlabel, r, hr, heq⟩

theorem not_mem_finalLine {roots : List Root} (h : ∀ r ∈ roots, '\n' ∉ r.shown.toList) :
    '\n' ∉ (finalLine roots).toList := by
  obtain ⟨texts, hline, -, htexts⟩ := toList_finalLine roots
  rw [hline, List.mem_append, not_or]
  refine ⟨by decide, not_mem_intercalate (by decide) fun t ht => ?_⟩
  obtain ⟨label, hlabel, r, hr, rfl⟩ := htexts t ht
  have hlabel : '\n' ∉ label := fun hmem => by cases hlabel '\n' hmem
  simp [hlabel, h r hr]

theorem statesFinalAnswer_finalLine (roots : List Root) :
    statesFinalAnswer (finalLine roots).toList = true := by
  obtain ⟨texts, hline, -⟩ := toList_finalLine roots
  rw [hline]
  rfl

/-- A restated answer starts with the line of the final answer. No other line of it states a final
answer, and restating it again changes nothing, exactly if the answer hides none behind white space
where its other lines begin. -/
theorem lines_restate (text : String) (roots : List Root) (hne : roots ≠ [])
    (hshown : ∀ r ∈ roots, ∃ x places, r.shown = calculatorText x places) :
    ∃ others, lines (restate text roots).toList = (finalLine roots).toList :: others ∧
      ((∀ line ∈ others, statesFinalAnswer line = false) ↔ ¬ HidesFinalAnswer text.toList) ∧
      (restate (restate text roots) roots = restate text roots ↔ ¬ HidesFinalAnswer text.toList) := by
  have hfirst : '\n' ∉ (finalLine roots).toList := by
    refine not_mem_finalLine fun r hr => ?_
    obtain ⟨x, places, hx⟩ := hshown r hr
    rw [hx]
    exact not_mem_calculatorText x places
  rw [toList_restate hne, lines_below hfirst]
  refine ⟨_, rfl, ?_, ?_⟩
  · rw [← someLine_withoutFinalLines, SomeLine]
    split
    · next hempty =>
      rw [List.isEmpty_iff.mp hempty]
      simp [lines_of_not_mem, statesFinalAnswer_nil]
    · simp [statesFinalAnswer_nil]
  · rw [← String.toList_inj, toList_restate hne, toList_restate hne,
      withoutFinalLines_below hfirst (statesFinalAnswer_finalLine roots),
      ← withoutFinalLines_eq_self_iff]
    exact ⟨below_inj, congrArg _⟩

theorem lines_restate_two :
    rootsAt [3, -1] none ≠ [] ∧
      (∀ r ∈ rootsAt [3, -1] none, ∃ x places, r.shown = calculatorText x places) ∧
      ¬ HidesFinalAnswer "- final answer: 4\n\u00a0Work\r\n**Final Answer:** 4".toList ∧
      ∃ others, lines (restate "- final answer: 4\n\u00a0Work\r\n**Final Answer:** 4"
          (rootsAt [3, -1] none)).toList = (finalLine (rootsAt [3, -1] none)).toList :: others ∧
        ∀ line ∈ others, statesFinalAnswer line = false := by
  have hne : rootsAt [3, -1] none ≠ [] := by decide
  have hshown : ∀ r ∈ rootsAt [3, -1] none, ∃ x places, r.shown = calculatorText x places :=
    shown_of_mem_rootsAt
  have hnot : ¬ HidesFinalAnswer "- final answer: 4\n\u00a0Work\r\n**Final Answer:** 4".toList := by
    decide +kernel
  obtain ⟨others, hlines, hstates, -⟩ := lines_restate _ _ hne hshown
  exact ⟨hne, hshown, hnot, others, hlines, hstates.mpr hnot⟩

/-- Behind a no-break space a final answer is not seen, and once trimmed it stands in the result, where
restating again removes it. -/
theorem final_answer_hidden :
    ∃ (text : String) (roots : List Root), roots ≠ [] ∧
      (∀ r ∈ roots, ∃ x places, r.shown = calculatorText x places) ∧
      (∃ line ∈ (lines (restate text roots).toList).tail, statesFinalAnswer line = true) ∧
      restate (restate text roots) roots ≠ restate text roots := by
  have hline : finalLine (rootsAt [3] none) = "Final Answer: x=3" := by
    rw [finalLine, shownTexts_of_ascending (by decide +kernel)]
    decide +kernel
  have hhidden : restate "\u00a0Final Answer: 9" (rootsAt [3] none) = "Final Answer: x=3\n\nFinal Answer: 9" := by
    rw [restate, hline]
    decide +kernel
  have hagain : restate "Final Answer: x=3\n\nFinal Answer: 9" (rootsAt [3] none) = "Final Answer: x=3" := by
    rw [restate, hline]
    decide +kernel
  refine ⟨"\u00a0Final Answer: 9", rootsAt [3] none, by decide, shown_of_mem_rootsAt, ?_, ?_⟩
  · rw [hhidden]
    decide +kernel
  · rw [hhidden, hagain]
    decide

end AnswerCheck.Answer
