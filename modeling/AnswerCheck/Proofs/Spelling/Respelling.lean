import AnswerCheck.Proofs.Spelling.Meaning
import AnswerCheck.Proofs.Spelling.Settling

/-! # Spelling in ASCII keeps what sides of equations mean

Tokens of a side may be written with mathematical characters instead. The ASCII spelling of such a
text is a side again, and it means the same expression, whatever else of it is rewritten.
-/

set_option autoImplicit false

namespace AnswerCheck.Spelling

open Text Grammar

variable {s s' : List Char} {e : Expr}

/-! ## Other spellings of tokens -/

/-- The tokens that can be written with mathematical characters, with these characters. -/
def otherSpellings : List (String × List Char) :=
  [("*", ['×', '∙', '•']), ("/", ['÷']), ("-", minusSigns), ("pi", ['π']), ("sqrt", ['√'])]

/-- The piece of text is read as a token that the character is another spelling of. -/
def Respells (piece : List Char) (c : Char) : Prop :=
  ∃ entry ∈ otherSpellings, piece.map plainMinus = entry.1.toList ∧ c ∈ entry.2

/-- `Respelled s s'`: the text `s'` is `s` with any of its tokens in other spellings. -/
inductive Respelled : List Char → List Char → Prop
  | nil : Respelled [] []
  | keep (c : Char) {s s' : List Char} (h : Respelled s s') : Respelled (c :: s) (c :: s')
  | respell {piece s s' : List Char} {c : Char} (hc : Respells piece c) (h : Respelled s s') :
      Respelled (piece ++ s) (c :: s')

theorem Respelled.refl (s : List Char) : Respelled s s := by
  induction s with
  | nil => exact Respelled.nil
  | cons c s ih => exact Respelled.keep c ih

theorem Respells.spellSymbol {piece : List Char} {c : Char} (h : Respells piece c) :
    spellSymbol c = piece.map plainMinus := by
  obtain ⟨entry, hentry, hpiece, hc⟩ := h
  have htable : (otherSpellings.all fun entry =>
      entry.2.all fun c => Spelling.spellSymbol c == entry.1.toList) = true := by decide
  have hspelling := List.all_eq_true.mp (List.all_eq_true.mp htable entry hentry) c hc
  rw [hpiece, eq_of_beq hspelling]

/-- A character that is no spelling of a token is in the new text only if it was in the old one. -/
theorem Respelled.not_mem {c : Char} (h : Respelled s s') (hs : c ∉ s.map plainMinus)
    (hplain : plainMinus c = c) (htable : (otherSpellings.any fun entry => entry.2.contains c) = false) :
    c ∉ s' := by
  induction h with
  | nil => simp
  | keep d _ ih =>
    rw [List.map_cons, List.mem_cons, not_or] at hs
    rw [List.mem_cons, not_or]
    refine ⟨?_, ih hs.2⟩
    rintro rfl
    exact hs.1 hplain.symm
  | respell hd _ ih =>
    rw [List.map_append, List.mem_append, not_or] at hs
    rw [List.mem_cons, not_or]
    refine ⟨?_, ih hs.2⟩
    rintro rfl
    obtain ⟨entry, hentry, -, hmem⟩ := hd
    have hnot := List.any_eq_false.mp htable entry hentry
    exact hnot (by simpa using hmem)

/-! ## Mathematical characters -/

theorem spellSymbol_eq {c : Char} (h : symbolSpelling? (plainMinus c) = none) :
    spellSymbol c = [plainMinus c] := by
  obtain hsame | ⟨hdash, hminus⟩ := plainMinus_cases c
  · rw [hsame] at h ⊢
    rw [spellSymbol, h]
  · have hall : (minusSigns.all fun c => spellSymbol c == ['-']) = true := by decide
    rw [hminus, eq_of_beq (List.all_eq_true.mp hall c hdash)]

theorem Respelled.replaceSymbols_eq (h : Respelled s s')
    (hs : ∀ c ∈ s.map plainMinus, symbolSpelling? c = none) : replaceSymbols s' = s.map plainMinus := by
  induction h with
  | nil => rfl
  | keep c _ ih =>
    rw [List.map_cons, List.forall_mem_cons] at hs
    rw [replaceSymbols, List.flatMap_cons, ← replaceSymbols, ih hs.2, spellSymbol_eq hs.1]
    rfl
  | respell hc _ ih =>
    rw [List.map_append, List.forall_mem_append] at hs
    rw [replaceSymbols, List.flatMap_cons, ← replaceSymbols, ih hs.2, hc.spellSymbol, List.map_append]

/-! ## Passes -/

variable {keeps : List Char → Prop} [Inherited keeps]

/-- A pass over a respelled text gives a text with the meaning of the text that was respelled. -/
theorem Respelled.pass_means (hr : Respelled s s') (h : Means keeps (s.map plainMinus) e) :
    Means keeps (pass s') e := by
  have hdollar : '$' ∉ s' := hr.not_mem (h.not_mem rfl rfl rfl) rfl rfl
  have hbackslash : '\\' ∉ s' := hr.not_mem (h.not_mem rfl rfl rfl) rfl rfl
  rw [pass, stripDelimiters_eq_self hdollar hbackslash, spellCommands_eq_self hbackslash,
    hr.replaceSymbols_eq h.symbolSpelling?]
  exact h.stages

theorem Means.iterate_pass (h : Means keeps s e) (n : Nat) : Means keeps (pass^[n] s) e := by
  induction n with
  | zero => exact h
  | succ n ih =>
    rw [Function.iterate_succ_apply']
    refine (Respelled.refl _).pass_means ?_
    rwa [ih.map_plainMinus]

/-- A side of an equation with any of its tokens in other spellings is, once it is spelled in ASCII,
a side with the same expression. -/
theorem ofText_asciiText (h : Expr.ofText s = .ok e) (hr : Respelled s s') :
    Expr.ofText (asciiText s') = .ok e := by
  obtain ⟨hmeans, hnesting⟩ := means_of_ofText h
  have hpasses : maxPasses = maxPasses - 1 + 1 := rfl
  rw [asciiText_eq_iterate, hpasses, Function.iterate_succ_apply]
  exact ((hr.pass_means hmeans).iterate_pass _).ofText hnesting

/-- A respelled side in which a number is rewritten and a blank goes as well. -/
theorem ofText_asciiText_product :
    Expr.ofText "2e+1*sqrt (x)".toList =
        .ok (.arith .mul (.number (Decimal.toFloat ⟨2, 1⟩)) (.call .sqrt .var)) ∧
      Expr.ofText (asciiText "2e+1×√ (x)".toList) =
        .ok (.arith .mul (.number (Decimal.toFloat ⟨2, 1⟩)) (.call .sqrt .var)) := by
  have hside : Expr.ofText "2e+1*sqrt (x)".toList =
      .ok (.arith .mul (.number (Decimal.toFloat ⟨2, 1⟩)) (.call .sqrt .var)) := rfl
  have htimes : Respells ['*'] '×' :=
    ⟨("*", ['×', '∙', '•']), by simp [otherSpellings], by decide, by simp⟩
  have hroot : Respells ['s', 'q', 'r', 't'] '√' :=
    ⟨("sqrt", ['√']), by simp [otherSpellings], by decide, by simp⟩
  have hproduct := Respelled.respell htimes (.respell hroot (.refl [' ', '(', 'x', ')']))
  exact ⟨hside, ofText_asciiText hside (.keep '2' (.keep 'e' (.keep '+' (.keep '1' hproduct))))⟩

end AnswerCheck.Spelling
