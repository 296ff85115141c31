import AnswerCheck.Proofs.Answer.Restating
import AnswerCheck.Proofs.Spelling.ShownNumbers

/-! # The final answer in ASCII

The line of the final answer is made of words that the ASCII spelling leaves alone, with single
spaces between them: the label, and for each root its name and the text that shows it.
-/

set_option autoImplicit false

namespace AnswerCheck.Answer

open Decimal Spelling Text

variable {t u : List Char}

/-! ## Lines of words -/

/-- A line that the ASCII spelling leaves alone, also when another line goes on after a space. -/
structure StableLine (t : List Char) : Prop where
  ne_nil : t ≠ []
  even : EvenlySpaced t
  settled : ∀ c ∈ t, isSettled c = true
  kept : Kept t

theorem StableLine.asciiText_eq (h : StableLine t) : asciiText t = t :=
  asciiText_eq_self (pass_eq_self h.settled h.even h.kept.tidyScientific_eq)

theorem stableLine_of_stable (h : Stable t) : StableLine t :=
  ⟨h.ne_nil, evenlySpaced_of_not_blank h.not_blank, h.settled, h.kept⟩

theorem StableLine.join (ht : StableLine t) (hu : StableLine u) : StableLine (t ++ ' ' :: u) where
  ne_nil := by simp [ht.ne_nil]
  even := ht.even.join hu.even ht.ne_nil hu.ne_nil
  settled := by
    rw [List.forall_mem_append, List.forall_mem_cons]
    exact ⟨ht.settled, rfl, hu.settled⟩
  kept := by
    have hspace : ∀ c ∈ [' '], c.isDigit = false := List.forall_mem_singleton.mpr rfl
    exact ht.kept.append (Kept.after hspace hu.kept) (stops_cons.mpr rfl)

/-! ## The line of the final answer -/

theorem stable_assignment {label : List Char} (hlabel : IsDigits label) (h : Stable t) :
    Stable ('x' :: label ++ '=' :: t) where
  ne_nil := List.cons_ne_nil _ _
  not_blank := by
    rw [List.forall_mem_append, List.forall_mem_cons, List.forall_mem_cons]
    exact ⟨⟨rfl, fun c hc => isBlank_of_isDigit (hlabel c hc)⟩, rfl, h.not_blank⟩
  settled := by
    rw [List.forall_mem_append, List.forall_mem_cons, List.forall_mem_cons]
    exact ⟨⟨rfl, fun c hc => isSettled_of_isDigit (hlabel c hc)⟩, rfl, h.settled⟩
  kept := by
    have hx : ∀ c ∈ ['x'], c.isDigit = false := List.forall_mem_singleton.mpr rfl
    have hequals : ∀ c ∈ ['='], c.isDigit = false := List.forall_mem_singleton.mpr rfl
    have hrest : Kept ('=' :: t) := Kept.after hequals h.kept
    have hlabelled : Kept (label ++ '=' :: t) := by
      by_cases hne : label = []
      · rwa [hne]
      · exact (kept_of_isDigits hlabel hne).append hrest (stops_cons.mpr rfl)
    have hassigned : Kept (['x'] ++ (label ++ '=' :: t)) := Kept.after hx hlabelled
    exact hassigned

theorem stable_comma (h : Stable t) : Stable (t ++ [',']) where
  ne_nil := by simp
  not_blank := List.forall_mem_append.mpr ⟨h.not_blank, List.forall_mem_singleton.mpr rfl⟩
  settled := List.forall_mem_append.mpr ⟨h.settled, List.forall_mem_singleton.mpr rfl⟩
  kept := by
    have hcomma : Kept [','] := kept_of_not_digits (List.forall_mem_singleton.mpr rfl)
    exact h.kept.append hcomma (stops_cons.mpr rfl)

theorem stableLine_intercalate {texts : List (List Char)} (hne : texts ≠ []) (h : ∀ t ∈ texts, Stable t) :
    StableLine (List.intercalate [',', ' '] texts) := by
  induction texts with
  | nil => exact absurd rfl hne
  | cons t texts ih =>
    obtain ⟨ht, htexts⟩ := List.forall_mem_cons.mp h
    cases texts with
    | nil =>
      rw [List.intercalate_singleton]
      exact stableLine_of_stable ht
    | cons u texts =>
      rw [List.intercalate_cons_cons, List.append_assoc, List.cons_append, List.append_cons]
      exact (stableLine_of_stable (stable_comma ht)).join (ih (List.cons_ne_nil _ _) htexts)

theorem stableLine_finalLine {roots : List Root} (hne : roots ≠ []) (h : ∀ r ∈ roots, Stable r.shown.toList) :
    StableLine (finalLine roots).toList := by
  have hfinal : Stable "Final".toList := stable_words (List.cons_ne_nil _ _) rfl rfl rfl
  have hanswer : Stable "Answer:".toList := stable_words (List.cons_ne_nil _ _) rfl rfl rfl
  obtain ⟨texts, hline, htexts, hassigned⟩ := toList_finalLine roots
  have hlist : StableLine (List.intercalate [',', ' '] texts) := by
    refine stableLine_intercalate (htexts hne) fun t ht => ?_
    obtain ⟨label, hlabel, r, hr, rfl⟩ := hassigned t ht
    exact stable_assignment hlabel (h r hr)
  rw [hline]
  exact (stableLine_of_stable hfinal).join ((stableLine_of_stable hanswer).join hlist)

theorem toAscii_eq_self {text : String} (h : StableLine text.toList) : toAscii text = text := by
  rw [toAscii, h.asciiText_eq, String.ofList_toList]

/-- The texts of numbers and the line of the final answer are in ASCII spelling as they are written. -/
theorem toAscii_shown :
    (∀ (x : Float) (places : Option Nat), toAscii (calculatorText x places) = calculatorText x places) ∧
      ∀ roots : List Root, roots ≠ [] → (∀ r ∈ roots, ∃ x places, r.shown = calculatorText x places) →
        toAscii (finalLine roots) = finalLine roots := by
  refine ⟨fun x places => toAscii_eq_self (stableLine_of_stable (stable_calculatorText x places)), ?_⟩
  intro roots hne hshown
  refine toAscii_eq_self (stableLine_finalLine hne fun r hr => ?_)
  obtain ⟨x, places, hx⟩ := hshown r hr
  rw [hx]
  exact stable_calculatorText x places

theorem toAscii_shown_two :
    rootsAt [3, -1] none ≠ [] ∧
      (∀ r ∈ rootsAt [3, -1] none, ∃ x places, r.shown = calculatorText x places) ∧
      toAscii (finalLine (rootsAt [3, -1] none)) = finalLine (rootsAt [3, -1] none) := by
  have hne : rootsAt [3, -1] none ≠ [] := by decide
  have hshown : ∀ r ∈ rootsAt [3, -1] none, ∃ x places, r.shown = calculatorText x places :=
    shown_of_mem_rootsAt
  exact ⟨hne, hshown, toAscii_shown.2 _ hne hshown⟩

end AnswerCheck.Answer
