import AnswerCheck.Proofs.Text.Context
import AnswerCheck.Spelling.Ascii
import Mathlib.Data.List.Chain

/-! # Texts that a stage leaves alone

Most rules need a character that formulas do not hold: a dollar sign, a backslash, a bar or a
superscript. The rules for powers need two stars side by side.
-/

set_option autoImplicit false

namespace AnswerCheck.Spelling

open Text

variable {rule : Recognizer (List Char)} {first : Char} {s : List Char}

/-! ## Rules that need a character -/

/-- A rule that writes what it reads changes nothing. -/
theorem replaceAll_eq_self_of_writes
    (h : ∀ t out rest, t <:+ s → rule t = some (out, rest) → out ≠ [] ∧ t = out ++ rest) :
    replaceAll rule s = s := by
  refine replaceAll_induction (P := fun out used _ => out = used) (motive := fun t written => written = t)
    (fun t out rest ht hmatch => ?reads) rfl ?pass ?write
  case reads =>
    obtain ⟨hne, heq⟩ := h t out rest ht hmatch
    exact ⟨out, hne, heq, rfl⟩
  case pass =>
    intro c t _ _ ih
    rw [ih]
  case write =>
    rintro used out rest - - - rfl ih
    rw [ih]

theorem replaceAll_eq_self (h : ∀ t, t <:+ s → rule t = none) : replaceAll rule s = s := by
  refine replaceAll_eq_self_of_writes fun t out rest ht hmatch => ?_
  rw [h t ht] at hmatch
  cases hmatch

theorem settle_eq_self {step : List Char → List Char} (h : step s = s) (size : List Char → Nat) :
    settle size step s = s := by
  unfold settle
  cases size s with
  | zero => rfl
  | succ rounds => rw [settleWithin, if_pos h]

/-- The rule reads only texts that start with the character. -/
def Needs (first : Char) (rule : Recognizer (List Char)) : Prop :=
  ∀ s found, rule s = some found → s.head? = some first

theorem Needs.replaceAll_eq (h : Needs first rule) (hs : first ∉ s) : replaceAll rule s = s := by
  refine replaceAll_eq_self fun t ht => ?_
  cases hfound : rule t with
  | none => rfl
  | some found =>
    have hmem : first ∈ t := List.mem_of_mem_head? (h t found hfound)
    exact absurd (ht.subset hmem) hs

theorem Needs.rewritesTo {first : Char} (h : Needs first rule) (hs : first ∉ s) :
    RewritesTo rule s s := by
  intro rest
  induction s with
  | nil => rfl
  | cons c s ih =>
    rw [List.mem_cons, not_or] at hs
    have hnone : rule (c :: (s ++ rest)) = none := by
      cases hfound : rule (c :: (s ++ rest)) with
      | none => rfl
      | some found => exact absurd (Option.some.inj (h _ _ hfound)).symm hs.1
    rw [List.cons_append, replaceAll_cons_none hnone, ih hs.2]
    rfl

/-- A rule that starts with a word needs the first character of the word. -/
theorem needs_of_after? (word : List Char) {next : List Char → Option (List Char × List Char)}
    (hrule : ∀ s, rule s = (after? (first :: word) s).bind next) : Needs first rule := by
  intro s found h
  rw [hrule] at h
  obtain ⟨rest, hword, -⟩ := Option.bind_eq_some_iff.mp h
  rw [after?_eq_some.mp hword]
  rfl

/-! ## Delimiters, commands and bars -/

theorem needs_displayed : Needs '$' displayed? := by
  intro s found h
  unfold displayed? at h
  split at h
  · rfl
  · cases h

theorem needs_inlined : Needs '$' inlined? := by
  intro s found h
  unfold inlined? at h
  split at h
  · rfl
  · cases h

theorem needs_bracket : Needs '\\' bracket? := by
  intro s found h
  unfold bracket? at h
  split at h
  · rfl
  · cases h

theorem stripDelimiters_eq_self (hdollar : '$' ∉ s) (hbackslash : '\\' ∉ s) : stripDelimiters s = s := by
  refine settle_eq_self ?_ _
  rw [stripRound, needs_displayed.replaceAll_eq hdollar, needs_inlined.replaceAll_eq hdollar,
    needs_bracket.replaceAll_eq hbackslash]

theorem needs_fraction : Needs '\\' fraction? :=
  needs_of_after? ['f', 'r', 'a', 'c'] fun _ => rfl

theorem needs_radical : Needs '\\' radical? :=
  needs_of_after? ['s', 'q', 'r', 't'] fun _ => rfl

theorem head?_of_afterSize? {rest : List Char} (h : afterSize? s = some rest) : s.head? = some '\\' := by
  obtain h | ⟨-, h⟩ := Option.or_eq_some_iff.mp h
  · rw [after?_eq_some.mp h]
    rfl
  · rw [after?_eq_some.mp h]
    rfl

theorem needs_sized : Needs '\\' sized? := by
  intro s found h
  obtain ⟨rest, hsize, -⟩ := Option.bind_eq_some_iff.mp h
  exact head?_of_afterSize? hsize

theorem needs_hidden : Needs '\\' hidden? := by
  intro s found h
  obtain ⟨rest, hsize, -⟩ := Option.bind_eq_some_iff.mp h
  exact head?_of_afterSize? hsize

theorem needs_command (table : List (String × String)) (ends : List Char → Bool) :
    Needs '\\' (command? table ends) := by
  intro s found h
  obtain ⟨⟨name, spelling⟩, -, h⟩ := List.exists_of_findSome?_eq_some h
  simp only at h
  split at h
  · next rest hword =>
    rw [after?_eq_some.mp hword]
    rfl
  · cases h

theorem spellCommands_eq_self (h : '\\' ∉ s) : spellCommands s = s := by
  have harguments : spellArguments s = s := by
    refine settle_eq_self ?_ _
    rw [argumentRound, needs_fraction.replaceAll_eq h, needs_radical.replaceAll_eq h]
  rw [spellCommands, harguments, needs_sized.replaceAll_eq h, needs_hidden.replaceAll_eq h, operator?,
    (needs_command _ _).replaceAll_eq h, symbol?, (needs_command _ _).replaceAll_eq h]

theorem needs_barred : Needs '|' barred? := by
  intro s found h
  unfold barred? at h
  split at h
  · rfl
  · cases h

theorem spellBars_eq_self (h : '|' ∉ s) : spellBars s = s :=
  settle_eq_self (needs_barred.replaceAll_eq h) _

/-! ## Superscripts and powers -/

theorem replaceSuperscripts_eq_self (h : ∀ c ∈ s, isSuperscript c = false) :
    replaceSuperscripts s = s := by
  refine replaceAll_eq_self fun t ht => ?_
  cases t with
  | nil => rfl
  | cons base t =>
    have hnone : run? isSuperscript t = none := by
      cases t with
      | nil => rfl
      | cons c t =>
        rw [run?, h c (ht.subset (by simp))]
        rfl
    rw [superscripted?, hnone]
    split <;> rfl

/-- Not both characters are stars. -/
def NotBothStars (c d : Char) : Prop :=
  c = '*' → d ≠ '*'

theorem starred?_eq_none {base gap exponent : Char → Bool} (h : s.IsChain NotBothStars) :
    starred? base gap exponent s = none := by
  cases s with
  | nil => rfl
  | cons c s =>
    rw [starred?]
    split
    · split
      · next rest hstars =>
        have hsuffix : '*' :: '*' :: rest <:+ c :: s :=
          (hstars ▸ List.dropWhile_suffix gap).trans (List.suffix_cons c s)
        have hchain := h.suffix hsuffix
        exact absurd rfl (List.isChain_cons_cons.mp hchain |>.1 rfl)
      · rfl
    · rfl

theorem replaceStars_eq_self (h : s.IsChain NotBothStars) : replaceStars s = s := by
  have htight : replaceAll tightPower? s = s :=
    replaceAll_eq_self fun t ht => starred?_eq_none (h.suffix ht)
  rw [replaceStars, htight]
  exact replaceAll_eq_self fun t ht => starred?_eq_none (h.suffix ht)

end AnswerCheck.Spelling
