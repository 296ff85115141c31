import AnswerCheck.Proofs.Spelling.Pieces
import AnswerCheck.Proofs.Spelling.Respelling
import AnswerCheck.Proofs.Text.Finding
import AnswerCheck.Equation

/-! # Answers that state an equation and a root of it

Such an answer labels its equation and assigns a number to the variable on the line of the final
answer. Spelling it in ASCII rewrites the sides of the equation and the number, and leaves the words
around them: the answer goes on stating the same equation and the same number.
-/

set_option autoImplicit false

namespace AnswerCheck.Answer

open Text Decimal Spelling Grammar

variable {left right numeral s : List Char} {e : Equation} {value : Float} {c : Char}

def equationLabel : List Char :=
  "Normalized Equation:".toList

/-- What announces the root, on a line of its own. -/
def rootLabel : List Char :=
  "\nFinal Answer: x=".toList

/-- The answer that states this equation and this root. -/
def statement (left right numeral : List Char) : List Char :=
  equationLabel ++ (left ++ '=' :: (right ++ (rootLabel ++ numeral)))

/-- `States s e value`: the answer `s` states the equation `e` and the number `value`. -/
inductive States : List Char → Equation → Float → Prop
  | mk {left right numeral : List Char} {e : Equation} {value : Float}
      (hleft : Means WithinLimits left e.left) (hright : Means WithinLimits right e.right)
      (hline : '\n' ∉ left) (hline' : '\n' ∉ right) (hnumeral : ProseNumeral numeral value) :
      States (statement left right numeral) e value

/-! ## Characters -/

def labelCharacters : List Char :=
  '=' :: (equationLabel ++ rootLabel)

theorem statement_all {p : Char → Bool} (hleft : ∀ c ∈ left, p c = true)
    (hright : ∀ c ∈ right, p c = true) (hnumeral : ∀ c ∈ numeral, p c = true)
    (hlabels : labelCharacters.all p = true) : ∀ c ∈ statement left right numeral, p c = true := by
  have hlabel (c : Char) (hc : c ∈ labelCharacters) : p c = true := List.all_eq_true.mp hlabels c hc
  simp only [labelCharacters, List.mem_cons, List.mem_append] at hlabel
  intro c hc
  simp only [statement, List.mem_append, List.mem_cons] at hc
  obtain hc | hc | hc | hc | hc | hc := hc
  · exact hlabel c (by simp [hc])
  · exact hleft c hc
  · exact hlabel c (by simp [hc])
  · exact hright c hc
  · exact hlabel c (by simp [hc])
  · exact hnumeral c hc

theorem not_mem_statement (hleft : c ∉ left) (hright : c ∉ right) (hnumeral : c ∉ numeral)
    (hlabels : labelCharacters.contains c = false) : c ∉ statement left right numeral := by
  have hlabel : ∀ d ∈ labelCharacters, (d != c) = true := bne_of_not_mem (by simpa using hlabels)
  intro hc
  have hself := statement_all (bne_of_not_mem hleft) (bne_of_not_mem hright)
    (bne_of_not_mem hnumeral) (List.all_eq_true.mpr hlabel) c hc
  simp at hself

theorem not_mem_labelled {label : List Char} (hnumeral : ProseNumeral numeral value)
    (hdigit : c.isDigit = false) (hmarks : numeralMarks.contains c = false)
    (hlabel : label.contains c = false) : c ∉ label ++ numeral := by
  rw [List.mem_append, not_or]
  exact ⟨by simpa using hlabel, hnumeral.not_mem hdigit hmarks⟩

/-! ## Delimiters, commands and mathematical characters -/

theorem replaceSymbols_append (s t : List Char) :
    replaceSymbols (s ++ t) = replaceSymbols s ++ replaceSymbols t :=
  List.flatMap_append

theorem replaceSymbols_numeral (h : ProseNumeral numeral value) : replaceSymbols numeral = numeral := by
  have hall := h.all (p := fun c => spellSymbol c == [c])
    (fun c hc => by rw [spellSymbol, symbolSpelling?_of_isDigit hc]; simp) (by decide)
  rw [replaceSymbols, List.flatMap_congr fun c hc => eq_of_beq (hall c hc), List.flatMap_singleton']

/-- The first stages of a pass only write the dashes of the sides as minus signs. -/
theorem respell_statement (hleft : Means WithinLimits (left.map plainMinus) e.left)
    (hright : Means WithinLimits (right.map plainMinus) e.right) (hnumeral : ProseNumeral numeral value) :
    replaceSymbols (spellCommands (stripDelimiters (statement left right numeral))) =
      statement (left.map plainMinus) (right.map plainMinus) numeral := by
  have hside {s : List Char} {e : Expr} (h : Means WithinLimits (s.map plainMinus) e) :
      '$' ∉ s ∧ '\\' ∉ s ∧ replaceSymbols s = s.map plainMinus :=
    ⟨(Respelled.refl s).not_mem (h.not_mem rfl rfl rfl) rfl rfl,
      (Respelled.refl s).not_mem (h.not_mem rfl rfl rfl) rfl rfl,
      (Respelled.refl s).replaceSymbols_eq h.symbolSpelling?⟩
  obtain ⟨hdollar, hbackslash, hsymbols⟩ := hside hleft
  obtain ⟨hdollar', hbackslash', hsymbols'⟩ := hside hright
  have hdollar := not_mem_statement hdollar hdollar' (hnumeral.not_mem rfl rfl) (by decide)
  have hbackslash := not_mem_statement hbackslash hbackslash' (hnumeral.not_mem rfl rfl) (by decide)
  have hequation : replaceSymbols equationLabel = equationLabel := by decide
  have hroot : replaceSymbols rootLabel = rootLabel := by decide
  have hsign (s : List Char) : replaceSymbols ('=' :: s) = '=' :: replaceSymbols s := rfl
  rw [stripDelimiters_eq_self hdollar hbackslash, spellCommands_eq_self hbackslash, statement,
    replaceSymbols_append, replaceSymbols_append, hsign, replaceSymbols_append, replaceSymbols_append,
    hequation, hroot, hsymbols, hsymbols', replaceSymbols_numeral hnumeral, statement]

/-! ## Roots, powers and numbers -/

section

variable {keeps : List Char → Prop} {a b : Expr} (hleft : Means keeps left a)
  (hright : Means keeps right b) (hnumeral : ProseNumeral numeral value)
include hleft hright hnumeral

theorem tidyRoots_statement : tidyRoots (statement left right numeral) =
    statement (tidyRoots left) (tidyRoots right) numeral := by
  have hlabel : RewritesTo looseRoot? equationLabel equationLabel :=
    needs_looseRoot.rewritesTo (by decide)
  have hsign (s : List Char) : tidyRoots ('=' :: s) = '=' :: tidyRoots s := replaceAll_cons_none rfl
  have hroot : 'q' ∉ rootLabel ++ numeral := not_mem_labelled hnumeral rfl rfl rfl
  have hword : Stops "qrt".toList.contains (rootLabel ++ numeral) := stops_cons.mpr rfl
  have hopening : Stops (· == '(') ((rootLabel ++ numeral).dropWhile isBlank) := stops_cons.mpr rfl
  calc tidyRoots (statement left right numeral)
      = equationLabel ++ tidyRoots (left ++ '=' :: (right ++ (rootLabel ++ numeral))) := hlabel _
    _ = equationLabel ++ (tidyRoots left ++ '=' :: tidyRoots (right ++ (rootLabel ++ numeral))) := by
      rw [tidyRoots_append hleft.closes (stops_cons.mpr rfl) (stops_cons.mpr rfl), hsign]
    _ = statement (tidyRoots left) (tidyRoots right) numeral := by
      rw [tidyRoots_append hright.closes hword hopening, tidyRoots_eq_self hroot, statement]

theorem wrapRadicands_statement :
    wrapRadicands (statement left right numeral) = statement left right numeral := by
  have hroot : 'q' ∉ rootLabel ++ numeral := not_mem_labelled hnumeral rfl rfl rfl
  have hsign : 's' ∉ ['='] := by decide
  rw [statement, wrapRadicands_append (by decide), hleft.wrapRadicands_append, ← List.singleton_append,
    wrapRadicands_append hsign, hright.wrapRadicands_append, wrapRadicands_eq_self hroot]

theorem replaceSuperscripts_statement :
    replaceSuperscripts (statement left right numeral) = statement left right numeral := by
  have hdigits : ∀ c ∈ numeral, (!isSuperscript c) = true :=
    hnumeral.all (fun c hc => by rw [isSuperscript_of_isDigit hc]; rfl) (by decide)
  have hall := statement_all (p := fun c => !isSuperscript c) (by simpa using hleft.isSuperscript)
    (by simpa using hright.isSuperscript) hdigits (by decide)
  exact replaceSuperscripts_eq_self (by simpa using hall)

theorem replaceStars_statement :
    replaceStars (statement left right numeral) = statement left right numeral := by
  have hroot : '*' ∉ rootLabel ++ numeral := not_mem_labelled hnumeral rfl rfl rfl
  have hend := isChain_append_of_not_mem hroot List.isChain_nil
  rw [List.append_nil] at hend
  have hside := hright.isChain_append hend (stops_cons.mpr rfl)
  have hsign := isChain_append_of_not_mem (t := ['=']) (by decide) hside
  refine replaceStars_eq_self (isChain_append_of_not_mem (by decide) ?_)
  exact hleft.isChain_append hsign (stops_cons.mpr rfl)

omit hnumeral in
theorem tidyScientific_statement [Inherited keeps] : tidyScientific (statement left right numeral) =
    statement (tidyScientific left) (tidyScientific right) (tidyScientific numeral) := by
  have hroot : Stops continuesNumeral (rootLabel ++ numeral) := stops_cons.mpr rfl
  rw [statement, tidyScientific_append (of_any_eq_false (by decide)),
    hleft.tidyScientific_append.2 _ (stops_cons.mpr rfl), tidyScientific_cons rfl,
    hright.tidyScientific_append.2 _ hroot, tidyScientific_append (of_any_eq_false (by decide)),
    statement]

end

/-! ## Blanks -/

theorem blankRuns_statement (hnumeral : ProseNumeral numeral value) :
    replaceAll blankRun? (statement left right numeral) =
      statement (replaceAll blankRun? left) (replaceAll blankRun? right) numeral := by
  have hlabel (s : List Char) : replaceAll blankRun? (equationLabel ++ s) =
      equationLabel ++ replaceAll blankRun? s := by
    -- The colon ends the last run of blanks in the label.
    have hcolon : Stops isInlineBlank (':' :: s) := stops_cons.mpr rfl
    have hwords : replaceAll blankRun? "Normalized Equation".toList = "Normalized Equation".toList := by
      decide
    have hsplit : equationLabel = "Normalized Equation".toList ++ [':'] := rfl
    simp only [hsplit, List.append_assoc, List.singleton_append]
    rw [replaceAll_blankRun_append hcolon, hwords, replaceAll_cons_none rfl]
  have hdigits : replaceAll blankRun? numeral = numeral :=
    (Thinned.congruence.replaceAll thinned_blankRun numeral).eq_of_no_blanks hnumeral.not_blank
  have hstop : Stops isInlineBlank numeral := by
    intro c hc
    have hblank := hnumeral.not_blank c (List.mem_of_mem_head? hc)
    simp [isInlineBlank, hblank]
  have hroot : replaceAll blankRun? (rootLabel ++ numeral) = rootLabel ++ numeral := by
    have hlabel : replaceAll blankRun? rootLabel = rootLabel := by decide
    rw [replaceAll_blankRun_append hstop, hlabel, hdigits]
  have hline : Stops isInlineBlank (rootLabel ++ numeral) := stops_cons.mpr rfl
  rw [statement, hlabel, replaceAll_blankRun_append (stops_cons.mpr rfl), replaceAll_cons_none rfl,
    replaceAll_blankRun_append hline, hroot, statement]

/-- A space before the line of the root goes. -/
theorem exists_spacesAtEnd (hleft : '\n' ∉ left) (hright : '\n' ∉ right) (hne : right ≠ [])
    (hnumeral : ProseNumeral numeral value) :
    ∃ right', Thinned right' right ∧
      replaceAll spaceAtEnd? (statement left right numeral) = statement left right' numeral := by
  have hend : '\n' ∉ "Final Answer: x=".toList ++ numeral := not_mem_labelled hnumeral rfl rfl rfl
  have hstays : replaceAll spaceAtEnd? ("Final Answer: x=".toList ++ numeral) =
      "Final Answer: x=".toList ++ numeral := by
    refine replaceAll_eq_self fun t ht => ?_
    cases hfound : spaceAtEnd? t with
    | none => rfl
    | some found =>
      obtain ⟨rfl, -⟩ := spaceAtEnd?_eq_some hfound
      exact absurd (ht.subset (by simp)) hend
  have htext (r : List Char) : statement left r numeral = equationLabel ++ (left ++ '=' :: r) ++
      '\n' :: ("Final Answer: x=".toList ++ numeral) := by
    have hroot : rootLabel = '\n' :: "Final Answer: x=".toList := rfl
    simp only [statement, hroot, List.append_assoc, List.cons_append]
  have hfirst : '\n' ∉ equationLabel ++ (left ++ '=' :: right) := by
    have hlabel : '\n' ∉ equationLabel := by decide
    simp [hlabel, hleft, hright]
  obtain ⟨t, ht, hreplace⟩ := exists_spaceAtEnd hfirst
  obtain rfl | heq := ht
  · refine ⟨right, Thinned.refl right, ?_⟩
    rw [htext, hreplace, hstays]
  · obtain rfl | ⟨right', c, rfl⟩ := List.eq_nil_or_concat' right
    · exact absurd rfl hne
    · have hsplit : equationLabel ++ (left ++ '=' :: right') ++ [c] = t ++ [' '] := by
        rw [← heq]
        simp
      obtain ⟨rfl, hc⟩ := List.append_inj' hsplit rfl
      obtain rfl : c = ' ' := by simpa using hc
      refine ⟨right', ?_, ?_⟩
      · have hthin := (Thinned.refl right').append (Thinned.drop (c := ' ') rfl Thinned.nil)
        rwa [List.append_nil] at hthin
      · rw [htext, hreplace, hstays, htext]

theorem trim_statement (hnumeral : ProseNumeral numeral value) :
    trim (statement left right numeral) = statement left right numeral := by
  refine trim_eq_self (stops_cons.mpr rfl) ?_
  have htext : statement left right numeral =
      equationLabel ++ (left ++ '=' :: (right ++ rootLabel)) ++ numeral := by
    simp [statement]
  rw [htext]
  exact stops_reverse_append hnumeral.ne_nil hnumeral.not_blank _

/-- The stage for blanks thins the sides out. -/
theorem exists_tidyBlanks {keeps : List Char → Prop} [Inherited keeps] {b : Expr}
    (hright : Means keeps right b) (hline : '\n' ∉ left) (hline' : '\n' ∉ right)
    (hnumeral : ProseNumeral numeral value) :
    ∃ left' right', Thinned left' left ∧ Thinned right' right ∧
      tidyBlanks (statement left right numeral) = statement left' right' numeral := by
  have hruns (s : List Char) : Thinned (replaceAll blankRun? s) s :=
    Thinned.congruence.replaceAll thinned_blankRun s
  obtain ⟨right', hthin, hspaces⟩ := exists_spacesAtEnd ((hruns left).not_mem (by decide) hline)
    ((hruns right).not_mem (by decide) hline') (hright.thinned (hruns right)).ne_nil hnumeral
  refine ⟨replaceAll blankRun? left, right', hruns left, hthin.trans (hruns right), ?_⟩
  rw [tidyBlanks, blankRuns_statement hnumeral, hspaces, trim_statement hnumeral]

/-! ## Passes -/

/-- What is stated stays through the stages after the mathematical characters. -/
theorem States.stages (h : States s e value) :
    States (tidyBlanks (tidyScientific (replaceStars (replaceSuperscripts (wrapRadicands
      (tidyRoots (spellBars s))))))) e value := by
  obtain ⟨hleft, hright, hline, hline', hnumeral⟩ := h
  rename_i left right numeral
  have hbar : '|' ∉ statement left right numeral :=
    not_mem_statement (hleft.not_mem rfl rfl rfl) (hright.not_mem rfl rfl rfl)
      (hnumeral.not_mem rfl rfl) (by decide)
  have hroots := hleft.thinned (tidyRoots_thinned left)
  have hroots' := hright.thinned (tidyRoots_thinned right)
  have hnumbers := hroots.tidyScientific_append.1
  have hnumbers' := hroots'.tidyScientific_append.1
  have hfeed {s : List Char} (hs : '\n' ∉ s) : '\n' ∉ tidyScientific (tidyRoots s) :=
    not_mem_tidyScientific (by decide) ((tidyRoots_thinned s).not_mem (by decide) hs)
  have hnumeral' := proseNumeral_tidyScientific hnumeral
  obtain ⟨left', right', hthin, hthin', hblanks⟩ :=
    exists_tidyBlanks hnumbers' (hfeed hline) (hfeed hline') hnumeral'
  rw [spellBars_eq_self hbar, tidyRoots_statement hleft hright hnumeral,
    wrapRadicands_statement hroots hroots' hnumeral,
    replaceSuperscripts_statement hroots hroots' hnumeral, replaceStars_statement hroots hroots' hnumeral,
    tidyScientific_statement hroots hroots', hblanks]
  exact .mk (hnumbers.thinned hthin) (hnumbers'.thinned hthin') (hthin.not_mem (by decide) (hfeed hline))
    (hthin'.not_mem (by decide) (hfeed hline')) hnumeral'

/-- A pass over an answer whose sides hold any dashes for minus signs. -/
theorem pass_states (hleft : Means WithinLimits (left.map plainMinus) e.left)
    (hright : Means WithinLimits (right.map plainMinus) e.right) (hline : '\n' ∉ left)
    (hline' : '\n' ∉ right) (hnumeral : ProseNumeral numeral value) :
    States (pass (statement left right numeral)) e value := by
  have hfeed {s : List Char} (hs : '\n' ∉ s) : '\n' ∉ s.map plainMinus := by
    intro hmem
    obtain ⟨c, hc, hplain⟩ := List.mem_map.mp hmem
    obtain hsame | ⟨-, hminus⟩ := plainMinus_cases c
    · rw [← hplain, hsame] at hs
      exact hs hc
    · rw [hminus] at hplain
      cases hplain
  rw [Spelling.pass, respell_statement hleft hright hnumeral]
  exact (States.mk hleft hright (hfeed hline) (hfeed hline') hnumeral).stages

theorem States.pass (h : States s e value) : States (pass s) e value := by
  obtain ⟨hleft, hright, hline, hline', hnumeral⟩ := h
  refine pass_states ?_ ?_ hline hline' hnumeral
  · rwa [hleft.map_plainMinus]
  · rwa [hright.map_plainMinus]

/-- The ASCII spelling of an answer states what the answer states. -/
theorem asciiText_states (hleft : Means WithinLimits (left.map plainMinus) e.left)
    (hright : Means WithinLimits (right.map plainMinus) e.right) (hline : '\n' ∉ left)
    (hline' : '\n' ∉ right) (hnumeral : ProseNumeral numeral value) :
    States (asciiText (statement left right numeral)) e value := by
  have hfirst := pass_states hleft hright hline hline' hnumeral
  have hpasses : maxPasses = maxPasses - 1 + 1 := rfl
  rw [asciiText_eq_iterate, hpasses, Function.iterate_succ_apply]
  induction maxPasses - 1 with
  | zero => exact hfirst
  | succ n ih =>
    rw [Function.iterate_succ_apply']
    exact ih.pass

end AnswerCheck.Answer
