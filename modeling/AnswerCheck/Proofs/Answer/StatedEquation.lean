import AnswerCheck.Answer.Statement
import AnswerCheck.Proofs.Answer.Stated
import AnswerCheck.Proofs.Text.Splitting

/-! # The equation is read off a statement

What stands behind the label is the equation with its sides as they are, apart from blanks: a side
neither starts nor ends with a star. So the equation that is stated is the one that is read.
-/

set_option autoImplicit false

namespace AnswerCheck.Answer

open Text Decimal Spelling Grammar

variable {keeps : List Char → Prop} {left right numeral s t : List Char} {a b : Expr} {e : Equation}
  {value : Float}

/-! ## Both ends of a side -/

def isWrapping (c : Char) : Bool :=
  isBlank c || c = '*' || c = '\x60'

theorem isWrapping_of_isBlank {c : Char} (h : isBlank c = true) : isWrapping c = true := by
  simp [isWrapping, h]

/-- A side is a text with blanks around it in which nothing more would be removed. -/
theorem exists_core [Inherited keeps] (h : Means keeps s a) :
    ∃ gap core back, s = gap ++ core ++ back ∧ (∀ c ∈ gap, isBlank c = true) ∧
      (∀ c ∈ back, isBlank c = true) ∧ core ≠ [] ∧ Stops isWrapping core ∧
      Stops isWrapping core.reverse := by
  obtain ⟨gap, back, hs, hgap, hback⟩ := exists_eq_append_trim s
  have htrim := h.thinned (trim_thinned s)
  obtain ⟨hstar, hstar'⟩ := htrim.stops_star
  have hmark : '\x60' ∉ trim s := htrim.not_mem rfl rfl rfl
  have hwrapping {t : List Char} (hblank : Stops isBlank t) (hstar : Stops (· == '*') t)
      (hmark : '\x60' ∉ t) : Stops isWrapping t := by
    intro c hc
    have hne : c ≠ '\x60' := by
      rintro rfl
      exact hmark (List.mem_of_mem_head? hc)
    have hnot := hstar c hc
    rw [beq_eq_false_iff_ne] at hnot
    simp [isWrapping, hblank c hc, hnot, hne]
  exact ⟨gap, trim s, back, hs, hgap, hback, htrim.ne_nil, hwrapping (stops_trim s) hstar hmark,
    hwrapping (stops_trim_reverse s) hstar' (by simpa using hmark)⟩

/-- Blanks at both ends are removed from an equation, and nothing else. -/
theorem trimWhile_isWrapping {core back gap core' back' : List Char} (hstop : Stops isWrapping core)
    (hne : core ≠ []) (hstop' : Stops isWrapping core'.reverse) (hne' : core' ≠ [])
    (hback : ∀ c ∈ back', isBlank c = true) :
    trimWhile isWrapping (core ++ back ++ '=' :: (gap ++ core' ++ back')) =
      core ++ back ++ '=' :: (gap ++ core') := by
  have htext : core ++ back ++ '=' :: (gap ++ core' ++ back') =
      core ++ back ++ '=' :: (gap ++ core') ++ back' := by
    simp
  have hstart : Stops isWrapping (core ++ back ++ '=' :: (gap ++ core') ++ back') := by
    simp only [List.append_assoc]
    exact hstop.append hne _
  have hend : Stops isWrapping (core ++ back ++ '=' :: (gap ++ core')).reverse := by
    rw [← List.cons_append, ← List.append_assoc, List.reverse_append]
    exact hstop'.append (by simpa using hne') _
  rw [htext, trimWhile, dropWhile_of_stops hstart]
  exact dropEndWhile_append hend fun c hc => isWrapping_of_isBlank (hback c hc)

/-! ## The equation behind its label -/

/-- What is announced is the rest of the line, from the first character on that is neither a mark nor
a blank. -/
theorem announced?_eq_some (hs : (s.dropWhile isMark).dropWhile isBlank = t) (hne : t ≠ [])
    (hline : Stops (· == '\n') t) : announced? s = some (t.takeWhile (· != '\n')) := by
  cases t with
  | nil => exact absurd rfl hne
  | cons c t =>
    have hc : (c != '\n') = true := by simpa using stops_cons.mp hline
    rw [announced?, hs, List.takeWhile_cons, if_pos hc]

theorem announced?_statement (numeral : List Char) (hleft : Means keeps left a) (hline : '\n' ∉ left)
    (hline' : '\n' ∉ right) :
    announced? (left ++ '=' :: (right ++ (rootLabel ++ numeral))) =
      some (left.dropWhile isBlank ++ '=' :: right) := by
  have hmark : Stops isMark (left ++ '=' :: (right ++ (rootLabel ++ numeral))) := by
    refine stops_append (fun c hc => ?_) (stops_cons.mpr rfl)
    have hstar := hleft.stops_star.1 c hc
    rw [beq_eq_false_iff_ne] at hstar
    have hunderscore : c ≠ '_' := by
      rintro rfl
      exact hleft.not_mem rfl rfl rfl (List.mem_of_mem_head? hc)
    simp [isMark, hstar, hunderscore]
  have hfeed : ∀ c ∈ left.dropWhile isBlank ++ '=' :: right, (c != '\n') = true := by
    refine bne_of_not_mem fun hc => ?_
    simp only [List.mem_append, List.mem_cons] at hc
    obtain hc | hc | hc := hc
    · exact hline ((List.dropWhile_suffix isBlank).subset hc)
    · cases hc
    · exact hline' hc
  have htext : left.dropWhile isBlank ++ '=' :: (right ++ (rootLabel ++ numeral)) =
      left.dropWhile isBlank ++ '=' :: right ++ (rootLabel ++ numeral) := by
    simp
  have hend : Stops (· != '\n') (rootLabel ++ numeral) := stops_cons.mpr rfl
  rw [announced?_eq_some (t := left.dropWhile isBlank ++ '=' :: right ++ (rootLabel ++ numeral)),
    takeWhile_append hfeed hend]
  · rw [dropWhile_of_stops hmark, dropWhile_append_stops (stops_cons.mpr rfl), htext]
  · simp
  · refine Stops.append (fun c hc => ?_) (by simp) _
    simpa using hfeed c (List.mem_of_mem_head? hc)

theorem label?_append (s : List Char) : label? (equationLabel ++ s) = some (announced? s, s) := by
  have hafter : afterCaseless? "normalized equation".toList (equationLabel ++ s) = some (':' :: s) := rfl
  rw [label?, hafter]
  rfl

/-- The equation that is read has the sides that are stated, apart from blanks. -/
theorem exists_equation? [Inherited keeps] (hleft : Means keeps left a) (hright : Means keeps right b)
    (hline : '\n' ∉ left) (hline' : '\n' ∉ right) :
    ∃ left' right', Thinned left' left ∧ Thinned right' right ∧
      equation? (statement left right numeral) = some (left' ++ '=' :: right') := by
  have hannounced := announced?_statement numeral hleft hline hline'
  obtain ⟨gap, core, back, rfl, hgap, -, hne, hstop, -⟩ := exists_core hleft
  obtain ⟨gap', core', back', rfl, -, hback', hne', -, hstop'⟩ := exists_core hright
  refine ⟨core ++ back, gap' ++ core', ?_, ?_, ?_⟩
  · rw [List.append_assoc]
    exact (Thinned.of_blanks hgap).append (Thinned.refl (core ++ back))
  · have hthin := (Thinned.refl (gap' ++ core')).append (Thinned.of_blanks hback')
    rwa [List.append_nil] at hthin
  · have hblank : Stops isBlank (core ++ back) :=
      (hstop.mono fun c hc => isWrapping_of_isBlank hc).append hne back
    rw [List.append_assoc gap, dropWhile_append hgap hblank] at hannounced
    have htext : equationLabel ++ (gap ++ core ++ back ++ '=' :: (gap' ++ core' ++ back' ++
        (rootLabel ++ numeral))) ≠ [] :=
      List.append_ne_nil_of_left_ne_nil (by decide) _
    have hlabelled : labelled? (statement (gap ++ core ++ back) (gap' ++ core' ++ back') numeral) =
        some (core ++ back ++ '=' :: (gap' ++ core')) := by
      rw [labelled?, statement, findFirst?_of_some htext (label?_append _), List.append_assoc gap,
        hannounced]
      change (if (trimWhile isWrapping _).isEmpty then _ else some (trimWhile isWrapping _)) = _
      rw [trimWhile_isWrapping hstop hne hstop' hne' hback', if_neg (by simp)]
    rw [equation?, hlabelled]
    rfl

/-- The equation that is read off a statement is the one that it states. -/
theorem States.exists_equation (h : States s e value) (hleft : e.left.nesting ≤ maxNesting)
    (hright : e.right.nesting ≤ maxNesting) :
    ∃ text, equation? s = some text ∧ Equation.ofText text = .ok e := by
  obtain ⟨hmeans, hmeans', hline, hline', -⟩ := h
  obtain ⟨left', right', hthin, hthin', hread⟩ := exists_equation? hmeans hmeans' hline hline'
  have hside := hmeans.thinned hthin
  have hside' := hmeans'.thinned hthin'
  have hsplit := splitOn_eq_pair.mpr ⟨rfl, hside.not_mem (c := '=') rfl rfl rfl,
    hside'.not_mem (c := '=') rfl rfl rfl⟩
  refine ⟨_, hread, ?_⟩
  rw [Equation.ofText, hsplit]
  simp only [hside.ofText hleft, hside'.ofText hright]
  rfl

end AnswerCheck.Answer
