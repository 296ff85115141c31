import AnswerCheck.Proofs.Answer.Restating
import AnswerCheck.Proofs.Text.Patterns

/-! # The lines that a restated answer keeps

The lines that state a final answer are those that a pattern fits at their start: decoration, the
words, emphasis, spaces or tabs, a colon, and whatever stands before the end of the line. Every other
line is kept whole, with its line feed, and only the blanks at both ends of all of them are lost.
-/

set_option autoImplicit false

namespace AnswerCheck.Answer

open Text

variable {line s t left right : List Char} {rows : List (List Char)}

/-! ## The lines of a text -/

/-- Lines one after another: each ends with its only line feed, but the last one may lack it. -/
inductive AreLines : List (List Char) → Prop where
  | nil : AreLines []
  | last {line : List Char} (hne : line ≠ []) (h : '\n' ∉ line) : AreLines [line]
  | more {line : List Char} {rows : List (List Char)} (h : '\n' ∉ line) (hrows : AreLines rows) :
      AreLines ((line ++ ['\n']) :: rows)

theorem areLines_fullLines (s : List Char) : AreLines (fullLines s) := by
  induction s using lines_induction with
  | last s hs =>
    by_cases hne : s = []
    · rw [hne]
      exact .nil
    · rw [fullLines_of_not_mem hs hne]
      exact .last hne hs
  | more left right hleft ih =>
    rw [fullLines_append hleft]
    exact .more hleft ih

theorem flatten_fullLines (s : List Char) : (fullLines s).flatten = s := by
  induction s using lines_induction with
  | last s hs =>
    by_cases hne : s = []
    · rw [hne]
      rfl
    · rw [fullLines_of_not_mem hs hne, List.flatten_singleton]
  | more left right hleft ih =>
    rw [fullLines_append hleft, List.flatten_cons, ih, List.append_assoc, List.singleton_append]

theorem AreLines.eq_fullLines (h : AreLines rows) : rows = fullLines rows.flatten := by
  induction h with
  | nil => rfl
  | last hne h => rw [List.flatten_singleton, fullLines_of_not_mem h hne]
  | more h _ ih =>
    rw [List.flatten_cons, List.append_assoc, List.singleton_append, fullLines_append h, ← ih]

/-! ## The pattern -/

/-- A line that states a final answer, from its start to the end of the line. -/
def finalAnswerLine : Pattern :=
  .inOrder [.many isDecoration, .wordCaseless "final answer", .many fun c => c = '*' || c = '_',
    .many fun c => c = ' ' || c = '\t', .one (· == ':'), .restOfLine, .either (.one (· == '\n')) .atEnd]

/-- Whether the pattern fits a piece at the start of the text. -/
def fitsAtStart (p : Pattern) (before : Option Char) (s : List Char) : Bool :=
  p.fits (fun _ _ => true) before s

/-- The end of the line can always be reached. -/
theorem fits_restOfLine (before : Option Char) (s : List Char) :
    (Pattern.inOrder [.restOfLine, .either (.one (· == '\n')) .atEnd]).fits (fun _ _ => true) before s =
      true := by
  refine Pattern.reaches_iff.mpr ⟨s.takeWhile (· != '\n'), s.dropWhile (· != '\n'),
    List.takeWhile_append_dropWhile.symm, fun c => List.mem_takeWhile_imp, ?_⟩
  have hstop := stops_dropWhile (· != '\n') s
  generalize s.dropWhile (· != '\n') = rest at hstop
  cases rest with
  | nil => rfl
  | cons c rest =>
    have hc : (c != '\n') = false := hstop c rfl
    obtain rfl : c = '\n' := by simpa using hc
    rfl

theorem fitsAtStart_finalAnswerLine (before : Option Char) (s : List Char) :
    fitsAtStart finalAnswerLine before s = statesFinalAnswer s := by
  rw [Bool.eq_iff_iff, statesFinalAnswer_iff, fitsAtStart, finalAnswerLine, Pattern.fits_inOrder_cons]
  constructor
  · intro h
    obtain ⟨decoration, s, rfl, hdecoration, h⟩ := Pattern.reaches_iff.mp h
    rw [Pattern.fits_inOrder_cons] at h
    obtain ⟨words, s, rfl, hwords, h⟩ := Pattern.fits_wordCaseless_iff.mp h
    rw [Pattern.fits_inOrder_cons] at h
    obtain ⟨emphasis, s, rfl, hemphasis, h⟩ := Pattern.reaches_iff.mp h
    rw [Pattern.fits_inOrder_cons] at h
    obtain ⟨spaces, s, rfl, hspaces, h⟩ := Pattern.reaches_iff.mp h
    rw [Pattern.fits_inOrder_cons] at h
    cases s with
    | nil => cases h
    | cons c rest =>
      obtain ⟨hcolon, -⟩ := Bool.and_eq_true_iff.mp h
      obtain rfl := eq_of_beq hcolon
      exact ⟨decoration, words, emphasis, spaces, rest, rfl, hdecoration, hwords, by simpa using hemphasis,
        by simpa using hspaces⟩
  · rintro ⟨decoration, words, emphasis, spaces, rest, rfl, hdecoration, hwords, hemphasis, hspaces⟩
    refine Pattern.reaches_iff.mpr ⟨decoration, _, rfl, hdecoration, ?_⟩
    rw [Pattern.fits_inOrder_cons]
    refine Pattern.fits_wordCaseless_iff.mpr ⟨words, _, rfl, hwords, ?_⟩
    rw [Pattern.fits_inOrder_cons]
    refine Pattern.reaches_iff.mpr ⟨emphasis, _, rfl, by simpa using hemphasis, ?_⟩
    rw [Pattern.fits_inOrder_cons]
    refine Pattern.reaches_iff.mpr ⟨spaces, _, rfl, by simpa using hspaces, ?_⟩
    rw [Pattern.fits_inOrder_cons]
    exact fits_restOfLine (some ':') rest

/-! ## What is kept -/

/-- The lines where the pattern does not fit, in the text that they start. -/
def unfitLines (p : Pattern) (before : Option Char) : List (List Char) → List Char
  | [] => []
  | line :: more =>
    if fitsAtStart p before (line ++ more.flatten) then unfitLines p (some '\n') more
    else line ++ unfitLines p (some '\n') more

theorem unfitLines_finalAnswerLine (before : Option Char) (s : List Char) :
    unfitLines finalAnswerLine before (fullLines s) = otherLines s := by
  induction s using lines_induction generalizing before with
  | last s hs =>
    by_cases hne : s = []
    · rw [hne]
      rfl
    · rw [fullLines_of_not_mem hs hne, unfitLines, fitsAtStart_finalAnswerLine, List.flatten_nil,
        List.append_nil, otherLines_of_not_mem hs]
      split
      · rfl
      · exact List.append_nil s
  | more left right hleft ih =>
    rw [fullLines_append hleft, unfitLines, fitsAtStart_finalAnswerLine, flatten_fullLines, List.append_assoc,
      List.singleton_append, statesFinalAnswer_line hleft, ih, otherLines_append hleft]
    split
    · rfl
    · rfl

/-- A restated answer is the line of the final answer and below it, after an empty line and without the
blanks at their ends, all lines of the answer that the pattern does not fit. -/
theorem restate_keeps_other_lines (text : String) (roots : List Root) (hne : roots ≠ []) :
    (∀ rows, AreLines rows ∧ rows.flatten = text.toList ↔ rows = fullLines text.toList) ∧
      restate text roots =
        let others := trim (unfitLines finalAnswerLine none (fullLines text.toList))
        if others.isEmpty then finalLine roots else finalLine roots ++ "\n\n" ++ String.ofList others := by
  constructor
  · intro rows
    constructor
    · rintro ⟨hrows, hflatten⟩
      rw [← hflatten]
      exact hrows.eq_fullLines
    · rintro rfl
      exact ⟨areLines_fullLines _, flatten_fullLines _⟩
  · rw [restate, if_neg (by simpa using hne), unfitLines_finalAnswerLine, ← withoutFinalLines_eq]

theorem restate_keeps_other_lines_decorated :
    rootsAt [3] none ≠ [] ∧
      restate "**Final Answer:** x = 4\nThe final answer follows.\n\n- FINAL answer_ : 4\n## Final Answer: 4"
        (rootsAt [3] none) = finalLine (rootsAt [3] none) ++ "\n\n" ++ "The final answer follows." := by
  have hne : rootsAt [3] none ≠ [] := by decide
  refine ⟨hne, (restate_keeps_other_lines _ _ hne).2.trans ?_⟩
  have hothers : trim (unfitLines finalAnswerLine none (fullLines
      "**Final Answer:** x = 4\nThe final answer follows.\n\n- FINAL answer_ : 4\n## Final Answer: 4".toList)) =
        "The final answer follows.".toList := by
    decide +kernel
  simp only [hothers, String.ofList_toList]
  rfl

end AnswerCheck.Answer
