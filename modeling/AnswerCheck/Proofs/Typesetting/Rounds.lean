import AnswerCheck.Proofs.Spelling.Settling
import AnswerCheck.Proofs.Spelling.Untouched

/-! # Fractions and radicals are written out in rounds

A round writes out the commands whose arguments hold no commands that take arguments. What it makes
of a text is told piece by piece: a piece is rewritten the same whatever text follows. Every round
leaves fewer commands, so as many rounds as there are commands are enough.
-/

set_option autoImplicit false

namespace AnswerCheck.Spelling

open Text

/-! ## Pieces -/

variable {rule : Recognizer (List Char)} {s s' t t' rest : List Char} {m n : Nat}

/-- A rule that needs a backslash and reads nothing at a command goes on after its name. -/
theorem Needs.command (h : Needs '\\' rule) {name : List Char} (hname : '\\' ∉ name)
    (hs : RewritesTo rule s t) (hnone : ∀ rest, rule ('\\' :: (name ++ s) ++ rest) = none) :
    RewritesTo rule ('\\' :: (name ++ s)) ('\\' :: (name ++ t)) :=
  ((h.rewritesTo hname).append hs).cons_of_none hnone

/-! ## Commands -/

/-- A fraction as it is typeset. -/
def fractionCommand (numerator denominator : List Char) : List Char :=
  '\\' :: ("frac\x7b".toList ++ (numerator ++ ("\x7d\x7b".toList ++ (denominator ++ ['\x7d']))))

/-- A radical as it is typeset. -/
def radicalCommand (radicand : List Char) : List Char :=
  '\\' :: ("sqrt\x7b".toList ++ (radicand ++ ['\x7d']))

/-- A fraction as it is written out. -/
def quotient (numerator denominator : List Char) : List Char :=
  '(' :: numerator ++ [')', '/', '('] ++ denominator ++ [')']

/-- A radical as it is written out. -/
def rootCall (radicand : List Char) : List Char :=
  "sqrt(".toList ++ radicand ++ [')']

theorem Needs.fractionCommand (h : Needs '\\' rule) (hs : RewritesTo rule s t)
    (hs' : RewritesTo rule s' t') (hnone : ∀ rest, rule (fractionCommand s s' ++ rest) = none) :
    RewritesTo rule (fractionCommand s s') (fractionCommand t t') := by
  have hbraces : RewritesTo rule "\x7d\x7b".toList "\x7d\x7b".toList := h.rewritesTo (by decide)
  have hclosing : RewritesTo rule ['\x7d'] ['\x7d'] := h.rewritesTo (by decide)
  exact h.command (by decide) (hs.append (hbraces.append (hs'.append hclosing))) hnone

theorem Needs.radicalCommand (h : Needs '\\' rule) (hs : RewritesTo rule s t)
    (hnone : ∀ rest, rule (radicalCommand s ++ rest) = none) :
    RewritesTo rule (radicalCommand s) (radicalCommand t) := by
  have hclosing : RewritesTo rule ['\x7d'] ['\x7d'] := h.rewritesTo (by decide)
  exact h.command (by decide) (hs.append hclosing) hnone

/-! ## Texts with commands -/

/-- Neither a backslash nor a brace. -/
def IsInert (s : List Char) : Prop :=
  '\\' ∉ s ∧ '\x7b' ∉ s ∧ '\x7d' ∉ s

instance (s : List Char) : Decidable (IsInert s) :=
  inferInstanceAs (Decidable (_ ∧ _))

/-- `Draft n s t`: the text `s` holds `n` commands for fractions and radicals, and `t` is `s` with
all of them written out. -/
inductive Draft : Nat → List Char → List Char → Prop
  | inert {s : List Char} (hs : IsInert s) : Draft 0 s s
  | operator {entry : String × String} (h : entry ∈ operatorTable) :
      Draft 0 ('\\' :: entry.1.toList) ('\\' :: entry.1.toList)
  | append {m n : Nat} {s s' t t' : List Char} (h : Draft m s t) (h' : Draft n s' t') :
      Draft (m + n) (s ++ s') (t ++ t')
  | fraction {m n : Nat} {s s' t t' : List Char} (h : Draft m s t) (h' : Draft n s' t')
      (ht : t ≠ []) (ht' : t' ≠ []) : Draft (m + n + 1) (fractionCommand s s') (quotient t t')
  | radical {n : Nat} {s t : List Char} (h : Draft n s t) (ht : t ≠ []) :
      Draft (n + 1) (radicalCommand s) (rootCall t)

namespace Draft

theorem written (h : Draft n s t) : Draft 0 t t := by
  have hopening : Draft 0 ['('] ['('] := inert (by decide)
  have hclosing : Draft 0 [')'] [')'] := inert (by decide)
  induction h with
  | inert hs => exact inert hs
  | operator hmem => exact operator hmem
  | append _ _ ih ih' => exact ih.append ih'
  | fraction _ _ _ _ ih ih' =>
    have hslash : Draft 0 [')', '/', '('] [')', '/', '('] := inert (by decide)
    exact (((hopening.append ih).append hslash).append ih').append hclosing
  | radical _ _ ih =>
    have hname : Draft 0 "sqrt(".toList "sqrt(".toList := inert (by decide)
    exact (hname.append ih).append hclosing

theorem name_operator {entry : String × String} (h : entry ∈ operatorTable) :
    IsInert entry.1.toList := by
  have htable : (operatorTable.all fun entry => decide (IsInert entry.1.toList)) = true := by decide
  exact of_decide_eq_true (List.all_eq_true.mp htable entry h)

/-- Without commands there is nothing to write out, and there are no braces. -/
theorem eq_of_zero (h : Draft 0 s t) : s = t ∧ '\x7b' ∉ s ∧ '\x7d' ∉ s := by
  generalize hn : 0 = n at h
  induction h with
  | inert hs => exact ⟨rfl, hs.2⟩
  | operator hmem => simp [(name_operator hmem).2]
  | append _ _ ih ih' =>
    obtain ⟨rfl, hs⟩ := ih (by omega)
    obtain ⟨rfl, hs'⟩ := ih' (by omega)
    simp [hs, hs']
  | fraction => omega
  | radical => omega

/-- The first brace of a text with commands is an opening one. -/
theorem exists_brace (h : Draft n s t) (hn : n ≠ 0) :
    ∃ before after, s = before ++ '\x7b' :: after ∧ '\x7b' ∉ before ∧ '\x7d' ∉ before := by
  induction h with
  | inert => exact absurd rfl hn
  | operator => exact absurd rfl hn
  | @append m n s s' t t' h _ ih ih' =>
    by_cases hm : m = 0
    · subst hm
      obtain ⟨-, hopen, hclose⟩ := h.eq_of_zero
      obtain ⟨before, after, rfl, hopen', hclose'⟩ := ih' (by omega)
      exact ⟨s ++ before, after, by simp, by simp [hopen, hopen'], by simp [hclose, hclose']⟩
    · obtain ⟨before, after, rfl, hbefore⟩ := ih hm
      exact ⟨before, after ++ s', by simp, hbefore⟩
  | fraction => exact ⟨"\\frac".toList, _, rfl, by decide⟩
  | radical => exact ⟨"\\sqrt".toList, _, rfl, by decide⟩

theorem le_length (h : Draft n s t) : n ≤ s.length := by
  induction h with
  | inert => exact Nat.zero_le _
  | operator => exact Nat.zero_le _
  | append _ _ ih ih' =>
    rw [List.length_append]
    omega
  | fraction _ _ _ _ ih ih' =>
    simp only [fractionCommand, List.length_cons, List.length_append]
    omega
  | radical _ _ ih =>
    simp only [radicalCommand, List.length_cons, List.length_append]
    omega

end Draft

/-! ## Arguments -/

theorem argument?_eq (s : List Char) :
    argument? ('\x7b' :: s) = match run? (fun c => c != '\x7b' && c != '\x7d') s with
      | some (argument, '\x7d' :: rest) => some (argument, rest)
      | _ => none := rfl

theorem not_brace (hopen : '\x7b' ∉ s) (hclose : '\x7d' ∉ s) :
    ∀ c ∈ s, (c != '\x7b' && c != '\x7d') = true := by
  intro c hc
  simp only [Bool.and_eq_true, bne_iff_ne]
  exact ⟨fun hc' => hopen (hc' ▸ hc), fun hc' => hclose (hc' ▸ hc)⟩

theorem argument?_append (hs : s ≠ []) (hopen : '\x7b' ∉ s) (hclose : '\x7d' ∉ s) (rest : List Char) :
    argument? ('\x7b' :: (s ++ '\x7d' :: rest)) = some (s, rest) := by
  rw [argument?_eq, run?_append hs (not_brace hopen hclose) (stops_cons.mpr rfl)]
  rfl

theorem argument?_written (h : Draft 0 s t) (ht : t ≠ []) (rest : List Char) :
    argument? ('\x7b' :: (s ++ '\x7d' :: rest)) = some (t, rest) := by
  obtain ⟨rfl, hopen, hclose⟩ := h.eq_of_zero
  exact argument?_append ht hopen hclose rest

/-- An argument that still holds commands is not read. -/
theorem argument?_draft (h : Draft n s t) (hn : n ≠ 0) (rest : List Char) :
    argument? ('\x7b' :: (s ++ rest)) = none := by
  obtain ⟨before, after, rfl, hopen, hclose⟩ := h.exists_brace hn
  rw [List.append_assoc, List.cons_append, argument?_eq]
  by_cases hbefore : before = []
  · subst hbefore
    rfl
  · rw [run?_append hbefore (not_brace hopen hclose) (stops_cons.mpr rfl)]
    rfl

theorem fraction?_command (s s' rest : List Char) :
    fraction? (fractionCommand s s' ++ rest) =
      (argument? ('\x7b' :: (s ++ '\x7d' :: '\x7b' :: (s' ++ '\x7d' :: rest)))).bind
        fun first => (argument? first.2).bind
          fun second => some (quotient first.1 second.1, second.2) := by
  have htext : fractionCommand s s' ++ rest =
      "\\frac".toList ++ '\x7b' :: (s ++ '\x7d' :: '\x7b' :: (s' ++ '\x7d' :: rest)) := by
    simp [fractionCommand]
  rw [htext]
  rfl

theorem radical?_command (s rest : List Char) :
    radical? (radicalCommand s ++ rest) =
      (argument? ('\x7b' :: (s ++ '\x7d' :: rest))).bind
        fun found => some (rootCall found.1, found.2) := by
  have htext : radicalCommand s ++ rest = "\\sqrt".toList ++ '\x7b' :: (s ++ '\x7d' :: rest) := by
    simp [radicalCommand]
  rw [htext]
  rfl

theorem fraction?_written (h : Draft 0 s t) (h' : Draft 0 s' t') (ht : t ≠ []) (ht' : t' ≠ [])
    (rest : List Char) : fraction? (fractionCommand s s' ++ rest) = some (quotient t t', rest) := by
  rw [fraction?_command, argument?_written h ht, Option.bind_some, argument?_written h' ht']
  rfl

theorem fraction?_draft (h : Draft m s t) (h' : Draft n s' t') (ht : t ≠ []) (hargs : ¬ (m = 0 ∧ n = 0))
    (rest : List Char) : fraction? (fractionCommand s s' ++ rest) = none := by
  rw [fraction?_command]
  by_cases hm : m = 0
  · subst hm
    rw [argument?_written h ht, Option.bind_some, argument?_draft h' (by omega)]
    rfl
  · rw [argument?_draft h hm]
    rfl

theorem radical?_written (h : Draft 0 s t) (ht : t ≠ []) (rest : List Char) :
    radical? (radicalCommand s ++ rest) = some (rootCall t, rest) := by
  rw [radical?_command, argument?_written h ht]
  rfl

theorem radical?_draft (h : Draft n s t) (hn : n ≠ 0) (rest : List Char) :
    radical? (radicalCommand s ++ rest) = none := by
  rw [radical?_command, argument?_draft h hn]
  rfl

/-! ## One round -/

/-- The rule needs a backslash and reads none of the commands for operators. -/
structure PassesOperators (rule : Recognizer (List Char)) : Prop where
  needs : Needs '\\' rule
  operator : ∀ entry ∈ operatorTable, ∀ rest, rule ('\\' :: entry.1.toList ++ rest) = none

theorem forall_operator {P : String × String → Prop} (hcdot : P ("cdot", "*")) (htimes : P ("times", "*"))
    (hdiv : P ("div", "/")) : ∀ entry ∈ operatorTable, P entry := by
  simp [operatorTable, hcdot, htimes, hdiv]

theorem PassesOperators.rewritesTo (hrule : PassesOperators rule) (h : Draft 0 s t) :
    RewritesTo rule t t := by
  rw [← h.eq_of_zero.1]
  generalize hn : 0 = n at h
  induction h with
  | inert hs => exact hrule.needs.rewritesTo hs.1
  | @operator entry hmem =>
    have hname := hrule.needs.rewritesTo (Draft.name_operator hmem).1
    exact hname.cons_of_none (hrule.operator entry hmem)
  | append _ _ ih ih' => exact (ih (by omega)).append (ih' (by omega))
  | fraction => omega
  | radical => omega

theorem passesOperators_fraction : PassesOperators fraction? where
  needs := needs_fraction
  operator := forall_operator (fun _ => rfl) (fun _ => rfl) fun _ => rfl

theorem passesOperators_radical : PassesOperators radical? where
  needs := needs_radical
  operator := forall_operator (fun _ => rfl) (fun _ => rfl) fun _ => rfl

/-- A round first writes out fractions and then radicals, and at least one command goes. -/
theorem Draft.round (h : Draft n s t) :
    ∃ k m s₁ s₂, RewritesTo fraction? s s₁ ∧ Draft k s₁ t ∧ k ≤ n ∧
      RewritesTo radical? s₁ s₂ ∧ Draft m s₂ t ∧ m ≤ k ∧ m ≤ n - 1 := by
  have hzero {t : List Char} (h : Draft 0 t t) : RewritesTo radical? t t :=
    passesOperators_radical.rewritesTo h
  induction h with
  | inert hs =>
    have h := inert hs
    exact ⟨0, 0, _, _, passesOperators_fraction.rewritesTo h, h, by omega, hzero h, h, by omega⟩
  | operator hmem =>
    have h := operator hmem
    exact ⟨0, 0, _, _, passesOperators_fraction.rewritesTo h, h, by omega, hzero h, h, by omega⟩
  | append _ _ ih ih' =>
    obtain ⟨k, m, s₁, s₂, hfraction, hs₁, hk, hradical, hs₂, hm⟩ := ih
    obtain ⟨k', m', s₁', s₂', hfraction', hs₁', hk', hradical', hs₂', hm'⟩ := ih'
    exact ⟨k + k', m + m', s₁ ++ s₁', s₂ ++ s₂', hfraction.append hfraction', hs₁.append hs₁', by omega,
      hradical.append hradical', hs₂.append hs₂', by omega⟩
  | @fraction a b s s' t t' h h' ht ht' ih ih' =>
    by_cases hargs : a = 0 ∧ b = 0
    · obtain ⟨rfl, rfl⟩ := hargs
      have hwritten := (h.fraction h' ht ht').written
      exact ⟨0, 0, _, _, .of_some (by simp [fractionCommand]) (fraction?_written h h' ht ht'), hwritten,
        by omega, hzero hwritten, hwritten, by omega⟩
    · obtain ⟨k, m, s₁, s₂, hfraction, hs₁, hk, hradical, hs₂, hm⟩ := ih
      obtain ⟨k', m', s₁', s₂', hfraction', hs₁', hk', hradical', hs₂', hm'⟩ := ih'
      exact ⟨k + k' + 1, m + m' + 1, _, _,
        needs_fraction.fractionCommand hfraction hfraction' (fraction?_draft h h' ht hargs),
        hs₁.fraction hs₁' ht ht', by omega,
        needs_radical.fractionCommand hradical hradical' fun _ => rfl,
        hs₂.fraction hs₂' ht ht', by omega⟩
  | @radical a s t h ht ih =>
    obtain ⟨k, m, s₁, s₂, hfraction, hs₁, hk, hradical, hs₂, hm⟩ := ih
    have hfraction' : RewritesTo fraction? (radicalCommand s) (radicalCommand s₁) :=
      needs_fraction.radicalCommand hfraction fun _ => rfl
    by_cases hk0 : k = 0
    · subst hk0
      exact ⟨1, 0, _, _, hfraction', hs₁.radical ht, by omega,
        .of_some (by simp [radicalCommand]) (radical?_written hs₁ ht), (hs₁.radical ht).written, by omega⟩
    · exact ⟨k + 1, m + 1, _, _, hfraction', hs₁.radical ht, by omega,
        needs_radical.radicalCommand hradical (radical?_draft hs₁ hk0), hs₂.radical ht, by omega⟩

/-! ## All rounds -/

theorem Draft.argumentRound (h : Draft n s t) : ∃ m, Draft m (argumentRound s) t ∧ m ≤ n - 1 := by
  obtain ⟨k, m, s₁, s₂, hfraction, -, -, hradical, hs₂, -, hm⟩ := h.round
  refine ⟨m, ?_, hm⟩
  rwa [Spelling.argumentRound, hfraction.replaceAll_eq, hradical.replaceAll_eq]

theorem Draft.iterate (h : Draft n s t) (k : Nat) :
    ∃ m, Draft m (Spelling.argumentRound^[k] s) t ∧ m ≤ n - k := by
  induction k with
  | zero => exact ⟨n, h, Nat.le_refl n⟩
  | succ k ih =>
    obtain ⟨m, hm, hle⟩ := ih
    obtain ⟨m', hm', hle'⟩ := hm.argumentRound
    refine ⟨m', ?_, by omega⟩
    rwa [Function.iterate_succ_apply']

/-- All fractions and radicals are written out. -/
theorem Draft.spellArguments_eq (h : Draft n s t) : spellArguments s = t := by
  obtain ⟨m, hm, hle⟩ := h.iterate s.length
  obtain rfl : m = 0 := by
    have := h.le_length
    omega
  rw [spellArguments, settle, settleWithin_eq_iterate]
  exact hm.eq_of_zero.1

end AnswerCheck.Spelling
