import AnswerCheck.Proofs.Spelling.Rules
import AnswerCheck.Proofs.Spelling.Untouched
import AnswerCheck.Proofs.Text.Shortening

/-! # No math delimiters are left

Taking delimiters away brings other characters together, and these may be delimiters again. When the
rounds end, no pair is left: every backslash stands before another character than a bracket or a
parenthesis, and dollar signs stand in one run, which is too short for two pairs.
-/

set_option autoImplicit false

namespace AnswerCheck.Spelling

open Text

variable {rule : Recognizer (List Char)} {s t : List Char} {c : Char}

/-! ## What is taken away -/

/-- The characters of which delimiters are made. -/
def isDelimiter (c : Char) : Bool :=
  c = '$' || c = '\\' || c = '(' || c = ')' || c = '[' || c = ']'

/-- `Stripped t s`: the text `t` is `s` without some of its delimiter characters. -/
def Stripped (t s : List Char) : Prop :=
  t.Sublist s ∧ t.filter (!isDelimiter ·) = s.filter (!isDelimiter ·)

theorem congruence_stripped : Congruence Stripped where
  refl s := ⟨List.Sublist.refl s, rfl⟩
  trans h h' := ⟨h.1.trans h'.1, h.2.trans h'.2⟩
  append h h' := ⟨h.1.append h'.1, by rw [List.filter_append, List.filter_append, h.2, h'.2]⟩

theorem stripped_nil (h : s.all isDelimiter = true) : Stripped [] s := by
  refine ⟨List.nil_sublist s, Eq.symm (List.filter_eq_nil_iff.mpr fun c hc => ?_)⟩
  rw [List.all_eq_true.mp h c hc]
  exact Bool.false_ne_true

theorem Stripped.shorterOrSame (h : Stripped t s) : ShorterOrSame t s := by
  obtain hlt | heq := Nat.lt_or_eq_of_le h.1.length_le
  · exact Or.inr hlt
  · exact Or.inl (h.1.eq_of_length heq)

/-- The rule takes delimiter characters away, at least one, and does nothing else. -/
def Strips (rule : Recognizer (List Char)) : Prop :=
  Rewrites (fun t s => Stripped t s ∧ t.length < s.length) rule

theorem Strips.replaceAll (h : Strips rule) (s : List Char) : Stripped (replaceAll rule s) s := by
  refine congruence_stripped.replaceAll (fun s out rest hrule => ?_) s
  obtain ⟨used, hne, hs, hout, -⟩ := h s out rest hrule
  exact ⟨used, hne, hs, hout⟩

theorem Strips.shortens (h : Strips rule) : Shortens rule := by
  intro s out rest hrule
  obtain ⟨used, hne, hs, -, hlength⟩ := h s out rest hrule
  exact ⟨used, hne, hs, hlength⟩

theorem stripped_between {left right : List Char} (hleft : left.all isDelimiter = true)
    (hright : right.all isDelimiter = true) (s : List Char) : Stripped s (left ++ s ++ right) := by
  have h := congruence_stripped.append
    (congruence_stripped.append (stripped_nil hleft) (congruence_stripped.refl s)) (stripped_nil hright)
  rwa [List.nil_append, List.append_nil] at h

theorem strips_displayed : Strips displayed? := by
  intro s out rest h
  refine ⟨['$', '$'] ++ out ++ ['$', '$'], by simp, by simp [displayed?_eq_some h],
    stripped_between rfl rfl out, ?_⟩
  simp only [List.length_append, List.length_cons, List.length_nil]
  omega

theorem strips_inlined : Strips inlined? := by
  intro s out rest h
  refine ⟨['$'] ++ out ++ ['$'], by simp, by simp [inlined?_eq_some h], stripped_between rfl rfl out, ?_⟩
  simp only [List.length_append, List.length_cons, List.length_nil]
  omega

theorem strips_bracket : Strips bracket? := by
  intro s out rest h
  obtain ⟨c, hc, rfl, rfl⟩ := bracket?_eq_some h
  refine ⟨['\\', c], by simp, rfl, stripped_nil ?_, by simp⟩
  obtain rfl | rfl | rfl | rfl := hc <;> rfl

theorem stripRound_stripped (s : List Char) : Stripped (stripRound s) s :=
  congruence_stripped.trans (strips_bracket.replaceAll _)
    (congruence_stripped.trans (strips_inlined.replaceAll _) (strips_displayed.replaceAll s))

/-! ## What is left -/

/-- A text without a delimiter: none of the rules reads anything in it. -/
structure HasNoDelimiter (s : List Char) : Prop where
  displayed {t : List Char} (ht : t <:+ s) : displayed? t = none
  inlined {t : List Char} (ht : t <:+ s) : inlined? t = none
  bracket {t : List Char} (ht : t <:+ s) : bracket? t = none

theorem Strips.eq_none (h : Strips rule) (hnil : rule [] = none) (hs : Text.replaceAll rule s = s)
    (ht : t <:+ s) : rule t = none := by
  by_cases hne : t = []
  · rw [hne, hnil]
  · exact h.shortens.eq_none hs ht hne

/-- No stage of a round brings back what the one before it has taken. -/
theorem hasNoDelimiter_of_stripRound (h : stripRound s = s) : HasNoDelimiter s := by
  have hdisplayed : replaceAll displayed? s = s := by
    refine (strips_displayed.replaceAll s).shorterOrSame.eq_of_trans (Stripped.shorterOrSame ?_)
    have hmore := congruence_stripped.trans (strips_bracket.replaceAll _)
      (strips_inlined.replaceAll (replaceAll displayed? s))
    rwa [← stripRound, h] at hmore
  rw [stripRound, hdisplayed] at h
  have hinlined : replaceAll inlined? s = s := by
    refine (strips_inlined.replaceAll s).shorterOrSame.eq_of_trans (Stripped.shorterOrSame ?_)
    have hmore := strips_bracket.replaceAll (replaceAll inlined? s)
    rwa [h] at hmore
  rw [hinlined] at h
  exact ⟨strips_displayed.eq_none rfl hdisplayed, strips_inlined.eq_none rfl hinlined,
    strips_bracket.eq_none rfl h⟩

theorem HasNoDelimiter.not_bracket (h : HasNoDelimiter s) (hc : c ∈ "[]()".toList) : ¬ ['\\', c] <:+: s := by
  rintro ⟨before, after, hs⟩
  have hnone := h.bracket (t := '\\' :: c :: after) ⟨before, by simpa using hs⟩
  have hdelimiter : c = '[' ∨ c = ']' ∨ c = '(' ∨ c = ')' := by simpa using hc
  obtain rfl | rfl | rfl | rfl := hdelimiter <;> cases hnone

theorem inlined?_append {inside : List Char} (hne : inside ≠ []) (hinside : '$' ∉ inside) (rest : List Char) :
    inlined? ('$' :: (inside ++ '$' :: rest)) = some (inside, rest) := by
  rw [inlined?, run?_append hne (bne_of_not_mem hinside) (stops_cons.mpr rfl)]
  rfl

/-- Between two dollar signs that are left there are only dollar signs. -/
theorem exists_dollars (h : ∀ t, t <:+ s → inlined? t = none) :
    ∃ before n after, s = before ++ List.replicate n '$' ++ after ∧ '$' ∉ before ∧ '$' ∉ after := by
  induction s with
  | nil => exact ⟨[], 0, [], rfl, by simp, by simp⟩
  | cons c s ih =>
    obtain ⟨before, n, after, rfl, hbefore, hafter⟩ := ih fun t ht => h t (ht.trans (List.suffix_cons c _))
    by_cases hc : c = '$'
    · subst hc
      cases n with
      | zero => exact ⟨[], 1, before ++ after, by simp, by simp, by simp [hbefore, hafter]⟩
      | succ n =>
        have hnone := h _ (List.suffix_refl _)
        -- Anything between this dollar sign and the next one would be read as a formula.
        by_cases hne : before = []
        · subst hne
          exact ⟨[], n + 2, after, rfl, by simp, hafter⟩
        · rw [List.append_assoc, List.replicate_succ, List.cons_append, inlined?_append hne hbefore] at hnone
          cases hnone
    · exact ⟨c :: before, n, after, rfl, by simp [Ne.symm hc, hbefore], hafter⟩

/-- Four dollar signs in a row are two pairs. -/
theorem HasNoDelimiter.dollars (h : HasNoDelimiter s) :
    ∃ before n after, s = before ++ List.replicate n '$' ++ after ∧ n ≤ 3 ∧ '$' ∉ before ∧ '$' ∉ after := by
  obtain ⟨before, n, after, hs, hbefore, hafter⟩ := exists_dollars fun t => h.inlined
  refine ⟨before, n, after, hs, ?_, hbefore, hafter⟩
  by_contra hn
  obtain ⟨m, rfl⟩ : ∃ m, n = m + 4 := ⟨n - 4, by omega⟩
  have hnone := h.displayed (t := List.replicate (m + 4) '$' ++ after) ⟨before, by simp [hs]⟩
  cases hnone

/-- Taking math delimiters away ends. Only delimiter characters are gone then, no backslash stands before
a bracket or a parenthesis, the dollar signs that are left stand side by side and are at most three, and
there is nothing to take away a second time. -/
theorem delimiters_stripped (s : List Char) :
    (∀ t, RepeatsTo stripRound s t ↔ t = stripDelimiters s) ∧
      Stripped (stripDelimiters s) s ∧
      (∀ c ∈ "[]()".toList, ¬ ['\\', c] <:+: stripDelimiters s) ∧
      (∃ before n after, stripDelimiters s = before ++ List.replicate n '$' ++ after ∧ n ≤ 3 ∧
        '$' ∉ before ∧ '$' ∉ after) ∧
      stripDelimiters (stripDelimiters s) = stripDelimiters s := by
  have hround (s : List Char) : ShorterOrSame (stripRound s) s := (stripRound_stripped s).shorterOrSame
  have hfixed : stripRound (stripDelimiters s) = stripDelimiters s := settle_fixed hround s
  have hnone := hasNoDelimiter_of_stripRound hfixed
  exact ⟨fun t => repeatsTo_settle_iff hround, congruence_stripped.settle stripRound_stripped _ s,
    fun c => hnone.not_bracket, hnone.dollars, settle_eq_self hfixed _⟩

/-- The dollar signs go first and bring brackets together. -/
example : stripDelimiters "\\$$(x\\$$)".toList = ['x'] := by decide

end AnswerCheck.Spelling
