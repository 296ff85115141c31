import AnswerCheck.Proofs.Text.Shortening
import AnswerCheck.Proofs.Typesetting.Rounds

/-! # Nested fractions and radicals

The rounds end with every text, since a round that changes a text shortens it, and what they end
with holds no command that a rule could still read. A text in which fractions and radicals are
nested among plain text is spelled at every level at once.
-/

set_option autoImplicit false

namespace AnswerCheck.Spelling

open Text

variable {s t a gap : List Char}

/-! ## Arguments -/

/-- Neither empty nor with braces inside. -/
structure IsArgument (a : List Char) : Prop where
  ne_nil : a ≠ []
  opening : '\x7b' ∉ a
  closing : '\x7d' ∉ a

/-- Commands whose arguments are read, with or without blanks before the arguments. -/
inductive ReadCommand : List Char → Prop
  | fraction {gap gap' a b : List Char} (hgap : ∀ c ∈ gap, isBlank c = true)
      (hgap' : ∀ c ∈ gap', isBlank c = true) (ha : IsArgument a) (hb : IsArgument b) :
      ReadCommand ("\\frac".toList ++ gap ++ '\x7b' :: (a ++ '\x7d' :: (gap' ++ '\x7b' :: (b ++ ['\x7d']))))
  | radical {gap a : List Char} (hgap : ∀ c ∈ gap, isBlank c = true) (ha : IsArgument a) :
      ReadCommand ("\\sqrt".toList ++ gap ++ '\x7b' :: (a ++ ['\x7d']))

theorem argument?_gap (hgap : ∀ c ∈ gap, isBlank c = true) (ha : IsArgument a) (rest : List Char) :
    argument? (gap ++ '\x7b' :: (a ++ '\x7d' :: rest)) = some (a, rest) := by
  have hdrop : (gap ++ '\x7b' :: (a ++ '\x7d' :: rest)).dropWhile isBlank = '\x7b' :: (a ++ '\x7d' :: rest) :=
    dropWhile_append hgap (stops_cons.mpr rfl)
  have hargument := argument?_append ha.ne_nil ha.opening ha.closing rest
  rw [argument?_eq] at hargument
  rw [argument?, hdrop]
  exact hargument

/-! ## Rounds make texts shorter -/

theorem shortens_fraction : Shortens fraction? := by
  intro s out rest h
  obtain ⟨gap, numerator, gap', denominator, hs, rfl⟩ := fraction?_eq_some h
  refine ⟨_, by simp, hs, ?_⟩
  have hword : "\\frac".toList.length = 5 := rfl
  simp only [List.length_append, List.length_cons, List.length_nil]
  omega

theorem shortens_radical : Shortens radical? := by
  intro s out rest h
  obtain ⟨gap, radicand, hs, rfl⟩ := radical?_eq_some h
  refine ⟨_, by simp, hs, ?_⟩
  have hword : "\\sqrt".toList.length = 5 := rfl
  have hcall : "sqrt(".toList.length = 5 := rfl
  simp only [List.length_append, List.length_cons, List.length_nil]
  omega

theorem argumentRound_shorterOrSame (s : List Char) : ShorterOrSame (argumentRound s) s :=
  congruence_shorterOrSame.trans (shortens_radical.replaceAll _) (shortens_fraction.replaceAll s)

theorem argumentRound_spellArguments (s : List Char) :
    argumentRound (spellArguments s) = spellArguments s :=
  settle_fixed argumentRound_shorterOrSame s

/-- In a text that a round does not change neither rule reads anything. -/
theorem eq_none_of_argumentRound (h : argumentRound s = s) (ht : t <:+ s) (hne : t ≠ []) :
    fraction? t = none ∧ radical? t = none := by
  -- The radicals do not bring back what the fractions have taken.
  have hfraction : replaceAll fraction? s = s := by
    refine (shortens_fraction.replaceAll s).eq_of_trans ?_
    have hradical := shortens_radical.replaceAll (replaceAll fraction? s)
    rwa [← argumentRound, h] at hradical
  have hradical : replaceAll radical? s = s := by
    rwa [argumentRound, hfraction] at h
  exact ⟨shortens_fraction.eq_none hfraction ht hne, shortens_radical.eq_none hradical ht hne⟩

theorem ReadCommand.exists_read (h : ReadCommand t) (rest : List Char) :
    fraction? (t ++ rest) ≠ none ∨ radical? (t ++ rest) ≠ none := by
  cases h with
  | @fraction gap gap' a b hgap hgap' ha hb =>
    refine Or.inl ?_
    have hfirst := argument?_gap hgap ha (gap' ++ '\x7b' :: (b ++ '\x7d' :: rest))
    have hsecond := argument?_gap hgap' hb rest
    have htext :
        "\\frac".toList ++ gap ++ '\x7b' :: (a ++ '\x7d' :: (gap' ++ '\x7b' :: (b ++ ['\x7d']))) ++ rest =
          "\\frac".toList ++ (gap ++ '\x7b' :: (a ++ '\x7d' :: (gap' ++ '\x7b' :: (b ++ '\x7d' :: rest)))) := by
      simp
    rw [fraction?, after?_eq_some.mpr htext]
    simp [hfirst, hsecond]
  | @radical gap a hgap ha =>
    refine Or.inr ?_
    have hread := argument?_gap hgap ha rest
    have htext : "\\sqrt".toList ++ gap ++ '\x7b' :: (a ++ ['\x7d']) ++ rest =
        "\\sqrt".toList ++ (gap ++ '\x7b' :: (a ++ '\x7d' :: rest)) := by
      simp
    rw [radical?, after?_eq_some.mpr htext]
    simp [hread]

theorem not_readCommand_spellArguments (h : ReadCommand t) : ¬ t <:+: spellArguments s := by
  rintro ⟨before, after, htext⟩
  have hsuffix : t ++ after <:+ spellArguments s := ⟨before, by rw [← htext, List.append_assoc]⟩
  have hne : t ++ after ≠ [] := by
    cases h <;> simp
  obtain ⟨hfraction, hradical⟩ := eq_none_of_argumentRound (argumentRound_spellArguments s) hsuffix hne
  obtain hread | hread := h.exists_read after
  · exact hread hfraction
  · exact hread hradical

/-! ## Passages -/

/-- A sequence, not empty, of plain texts, fractions and radicals; the numerators, denominators and
radicands are such sequences themselves. -/
inductive Passage where
  | plain (text : List Char) (hne : text ≠ []) (hinert : IsInert text)
  | fraction (numerator denominator : Passage)
  | radical (radicand : Passage)
  | append (first more : Passage)

namespace Passage

/-- A passage as it is typeset. -/
def latex : Passage → List Char
  | plain text _ _ => text
  | fraction numerator denominator => fractionCommand numerator.latex denominator.latex
  | radical radicand => radicalCommand radicand.latex
  | append first more => first.latex ++ more.latex

/-- A passage with quotients and calls in place of the commands. -/
def written : Passage → List Char
  | plain text _ _ => text
  | fraction numerator denominator => quotient numerator.written denominator.written
  | radical radicand => rootCall radicand.written
  | append first more => first.written ++ more.written

theorem written_ne_nil (p : Passage) : p.written ≠ [] := by
  induction p with
  | plain text hne hinert => exact hne
  | fraction numerator denominator ih ih' => simp [written, quotient]
  | radical radicand ih => simp [written, rootCall]
  | append first more ih ih' => simp [written, ih]

theorem not_mem_written (p : Passage) : '\\' ∉ p.written := by
  induction p with
  | plain text hne hinert => exact hinert.1
  | fraction numerator denominator ih ih' => simp [written, quotient, ih, ih']
  | radical radicand ih => simp [written, rootCall, ih]
  | append first more ih ih' => simp [written, ih, ih']

theorem draft (p : Passage) : ∃ n, Draft n p.latex p.written := by
  induction p with
  | plain text hne hinert => exact ⟨0, .inert hinert⟩
  | fraction numerator denominator ih ih' =>
    obtain ⟨m, hnumerator⟩ := ih
    obtain ⟨n, hdenominator⟩ := ih'
    exact ⟨_, hnumerator.fraction hdenominator numerator.written_ne_nil denominator.written_ne_nil⟩
  | radical radicand ih =>
    obtain ⟨n, hradicand⟩ := ih
    exact ⟨_, hradicand.radical radicand.written_ne_nil⟩
  | append first more ih ih' =>
    obtain ⟨m, hfirst⟩ := ih
    obtain ⟨n, hmore⟩ := ih'
    exact ⟨_, hfirst.append hmore⟩

theorem draft_flatMap (ps : List Passage) : ∃ n, Draft n (ps.flatMap latex) (ps.flatMap written) := by
  induction ps with
  | nil => exact ⟨0, .inert (by decide)⟩
  | cons p ps ih =>
    obtain ⟨m, hp⟩ := p.draft
    obtain ⟨n, hps⟩ := ih
    exact ⟨_, by simpa using hp.append hps⟩

theorem spellCommands_flatMap (ps : List Passage) :
    spellCommands (ps.flatMap latex) = ps.flatMap written := by
  obtain ⟨n, hdraft⟩ := draft_flatMap ps
  have hbackslash : '\\' ∉ ps.flatMap written := by
    simp only [List.mem_flatMap, not_exists, not_and]
    exact fun p _ => p.not_mem_written
  rw [spellCommands, hdraft.spellArguments_eq, needs_sized.replaceAll_eq hbackslash,
    needs_hidden.replaceAll_eq hbackslash, operator?, (needs_command _ _).replaceAll_eq hbackslash, symbol?,
    (needs_command _ _).replaceAll_eq hbackslash]

end Passage

/-- The rounds end within as many rounds as the text has characters and leave no fraction and no
radical with brace-free arguments; and whatever is nested in a sequence of passages is written out at
every level, with nothing else changed. -/
theorem nested_commands_written_out :
    (∀ s : List Char, (∃ k ≤ s.length, spellArguments s = argumentRound^[k] s ∧
        argumentRound^[k + 1] s = argumentRound^[k] s) ∧
      ∀ t, ReadCommand t → ¬ t <:+: spellArguments s) ∧
    ∀ ps : List Passage, spellCommands (ps.flatMap Passage.latex) = ps.flatMap Passage.written := by
  refine ⟨fun s => ⟨⟨s.length, Nat.le_refl _, ?_, ?_⟩, fun t ht => ?_⟩, Passage.spellCommands_flatMap⟩
  · rw [spellArguments, settle, settleWithin_eq_iterate]
  · have hfixed := argumentRound_spellArguments s
    rwa [spellArguments, settle, settleWithin_eq_iterate,
      ← Function.iterate_succ_apply' argumentRound] at hfixed
  · exact not_readCommand_spellArguments ht

/-- A fraction inside a radical inside a fraction. -/
theorem nested_commands_written_out_thrice :
    ReadCommand "\\sqrt\x7b2\x7d".toList ∧
      ¬ "\\sqrt\x7b2\x7d".toList <:+: spellArguments "\\frac\x7b\\sqrt\x7b2\x7d\x7d\x7b2\x7d".toList ∧
      spellCommands "\\frac\x7b1\\sqrt\x7b\\frac\x7bx\x7d\x7b2\x7d\x7d\x7d\x7b3\x7d".toList =
        "(1sqrt((x)/(2)))/(3)".toList := by
  have hread : ReadCommand "\\sqrt\x7b2\x7d".toList :=
    .radical (List.forall_mem_nil _) (a := ['2']) ⟨by simp, by decide, by decide⟩
  let plain (c : Char) (h : IsInert [c]) : Passage := .plain [c] (by simp) h
  let quotient := Passage.fraction (plain 'x' (by decide)) (plain '2' (by decide))
  let numerator := (plain '1' (by decide)).append (.radical quotient)
  exact ⟨hread, (nested_commands_written_out.1 _).2 _ hread,
    nested_commands_written_out.2 [numerator.fraction (plain '3' (by decide))]⟩

end AnswerCheck.Spelling
