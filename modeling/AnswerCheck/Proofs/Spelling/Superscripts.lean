import AnswerCheck.Proofs.Spelling.Untouched
import AnswerCheck.Proofs.Text.Neighbours

/-! # Superscripts after their bases

The stage for superscripts leaves none directly after a character that can carry them: what it writes
has no superscripts, and a run of superscripts is taken whole. So it finds nothing to do in its own
output.
-/

set_option autoImplicit false

namespace AnswerCheck.Spelling

open Text

variable {s rest raised digits : List Char} {c : Char}

/-! ## Raised characters -/

theorem superscriptSpelling?_cases {d : Char} (h : superscriptSpelling? c = some d) :
    d.isDigit = true ∨ d = '+' ∨ d = '-' := by
  unfold superscriptSpelling? at h
  split at h <;> cases h <;> decide

theorem isSuperscript_of_carries (h : carriesSuperscript c = true) : isSuperscript c = false := by
  unfold isSuperscript superscriptSpelling?
  split <;> first | rfl | exact absurd h (by decide)

/-- The raised characters spell the text. -/
def Raises (raised text : List Char) : Prop :=
  raised.map superscriptSpelling? = text.map some

theorem Raises.isSuperscript (h : Raises raised digits) : ∀ c ∈ raised, isSuperscript c = true := by
  intro c hc
  have hmem : superscriptSpelling? c ∈ digits.map some := h ▸ List.mem_map_of_mem hc
  obtain ⟨d, -, hd⟩ := List.mem_map.mp hmem
  rw [Spelling.isSuperscript, ← hd]
  rfl

theorem Raises.filterMap_eq (h : Raises raised digits) :
    raised.filterMap superscriptSpelling? = digits := by
  have hmap := congrArg (List.filterMap id) h
  rw [List.filterMap_map, List.filterMap_map] at hmap
  exact hmap.trans List.filterMap_some

theorem Raises.ne_nil (h : Raises raised digits) (hne : digits ≠ []) : raised ≠ [] := by
  rintro rfl
  cases digits with
  | nil => exact hne rfl
  | cons d digits => cases h

/-! ## Powers -/

/-- The exponent of a power: a single character, or characters between parentheses. -/
def exponentText (exponent : List Char) : List Char :=
  match exponent with
  | [single] => [single]
  | _ => '(' :: exponent ++ [')']

theorem powerText_eq (base : Char) (exponent : List Char) :
    powerText base exponent = base :: '^' :: exponentText exponent := by
  match exponent with
  | [] => rfl
  | [_] => rfl
  | _ :: _ :: _ => rfl

theorem mem_exponentText {exponent : List Char} (h : c ∈ exponentText exponent) :
    c ∈ exponent ∨ c = '(' ∨ c = ')' := by
  unfold exponentText at h
  split at h
  · exact Or.inl h
  · simp only [List.cons_append, List.mem_cons, List.mem_append, List.not_mem_nil, or_false] at h
    tauto

theorem superscripted?_eq_some {out : List Char} (h : superscripted? s = some (out, rest)) :
    ∃ base raised, s = base :: raised ++ rest ∧ carriesSuperscript base = true ∧ raised ≠ [] ∧
      (∀ c ∈ raised, isSuperscript c = true) ∧ Stops isSuperscript rest ∧
      out = base :: '^' :: exponentText (raised.filterMap superscriptSpelling?) := by
  cases s with
  | nil => cases h
  | cons base s =>
    rw [superscripted?] at h
    split at h
    · next hbase =>
      split at h
      · next raised rest' hrun =>
        obtain ⟨rfl, rfl⟩ := Prod.mk.inj (Option.some.inj h)
        obtain ⟨rfl, hne, hraised, hstop⟩ := run?_eq_some hrun
        exact ⟨base, raised, rfl, hbase, hne, hraised, hstop, powerText_eq _ _⟩
      · cases h
    · cases h

theorem superscripted?_raised (hc : carriesSuperscript c = true) (hne : raised ≠ [])
    (hraised : ∀ d ∈ raised, isSuperscript d = true) (hrest : Stops isSuperscript rest) :
    superscripted? (c :: (raised ++ rest)) =
      some (c :: '^' :: exponentText (raised.filterMap superscriptSpelling?), rest) := by
  rw [superscripted?, if_pos hc, run?_append hne hraised hrest]
  simp only [powerText_eq]

/-- What is written for superscripts are their base, digits, signs and parentheses. -/
theorem no_superscripts_written (hc : carriesSuperscript c = true) (raised : List Char) :
    ∀ d ∈ c :: '^' :: exponentText (raised.filterMap superscriptSpelling?), isSuperscript d = false := by
  have hdigit {d : Char} (hd : d.isDigit = true) : isSuperscript d = false :=
    isSuperscript_of_carries (by simp [carriesSuperscript, Char.isAlphanum, hd])
  refine List.forall_mem_cons.mpr ⟨isSuperscript_of_carries hc, List.forall_mem_cons.mpr ⟨rfl, fun d hd => ?_⟩⟩
  obtain hd | rfl | rfl := mem_exponentText hd
  · obtain ⟨e, -, he⟩ := List.mem_filterMap.mp hd
    obtain hd | rfl | rfl := superscriptSpelling?_cases he
    · exact hdigit hd
    · rfl
    · rfl
  · rfl
  · rfl

/-- After the last character that is not raised, what is raised is written as its exponent. -/
theorem replaceSuperscripts_raised (hs : ∀ d ∈ s, isSuperscript d = false)
    (hc : carriesSuperscript c = true) (h : Raises raised digits) (hne : digits ≠ []) :
    replaceSuperscripts (s ++ c :: raised) = s ++ c :: '^' :: exponentText digits := by
  induction s with
  | nil =>
    have hread := superscripted?_raised hc (h.ne_nil hne) h.isSuperscript (stops_nil _)
    rw [← List.cons_append] at hread
    have hreplace := replaceAll_append_some (List.cons_ne_nil c raised) hread
    have hnil : replaceAll superscripted? [] = [] := rfl
    rwa [h.filterMap_eq, hnil, List.append_nil, List.append_nil] at hreplace
  | cons d s ih =>
    obtain ⟨-, hs⟩ := List.forall_mem_cons.mp hs
    have hstop : Stops isSuperscript (s ++ c :: raised) := by
      refine stops_append (fun e he => hs e (List.mem_of_mem_head? he)) (stops_cons.mpr ?_)
      exact isSuperscript_of_carries hc
    have hnone : superscripted? (d :: (s ++ c :: raised)) = none := by
      cases hfound : superscripted? (d :: (s ++ c :: raised)) with
      | none => rfl
      | some found =>
        obtain ⟨base, raised', htext, -, hne', hraised', -⟩ := superscripted?_eq_some hfound
        obtain ⟨-, htext⟩ := List.cons.inj htext
        obtain ⟨e, raised', rfl⟩ := List.exists_cons_of_ne_nil hne'
        rw [htext] at hstop
        have he := hraised' e List.mem_cons_self
        rw [stops_cons.mp hstop] at he
        cases he
    rw [List.cons_append, replaceSuperscripts, replaceAll_cons_none hnone, ← replaceSuperscripts, ih hs,
      List.cons_append]

/-! ## What is left -/

/-- No superscript stands after a character that can carry it. -/
def CarriesNothing (c d : Char) : Prop :=
  carriesSuperscript c = true → isSuperscript d = false

theorem superscripted?_eq_none (h : s.IsChain CarriesNothing) : superscripted? s = none := by
  cases hfound : superscripted? s with
  | none => rfl
  | some found =>
    obtain ⟨base, raised, rfl, hbase, hne, hraised, -⟩ := superscripted?_eq_some hfound
    obtain ⟨d, raised, rfl⟩ := List.exists_cons_of_ne_nil hne
    have hd := (List.isChain_cons_cons.mp h).1 hbase
    rw [hraised d List.mem_cons_self] at hd
    cases hd

theorem replaceSuperscripts_eq_self_of_isChain (h : s.IsChain CarriesNothing) :
    replaceSuperscripts s = s :=
  replaceAll_eq_self fun _ ht => superscripted?_eq_none (h.suffix ht)

theorem isChain_of_no_superscripts (hs : ∀ d ∈ s, isSuperscript d = false) :
    s.IsChain CarriesNothing := by
  induction s with
  | nil => exact List.isChain_nil
  | cons c s ih =>
    obtain ⟨-, hs⟩ := List.forall_mem_cons.mp hs
    exact (ih hs).cons fun d hd _ => hs d (List.mem_of_mem_head? hd)

theorem replaceSuperscripts_isChain (s : List Char) : (replaceSuperscripts s).IsChain CarriesNothing := by
  refine (isChain_replaceAll (fun _ => id) (fun t out rest _ hmatch => ?_) fun c t _ hmatch hc => ?_).2
  · obtain ⟨base, raised, rfl, hbase, -, -, hstop, rfl⟩ := superscripted?_eq_some hmatch
    have hwritten := no_superscripts_written hbase raised
    refine ⟨base :: raised, List.cons_ne_nil _ _, rfl, List.cons_ne_nil _ _, fun _ => ?_,
      isChain_of_no_superscripts hwritten, fun _ _ _ => hstop⟩
    exact stops_cons.mpr (hwritten base List.mem_cons_self)
  · intro d hd
    obtain ⟨t, rfl⟩ := List.head?_eq_some_iff.mp hd
    rw [Bool.eq_false_iff]
    intro hraised
    simp [superscripted?, hc, run?, hraised] at hmatch

theorem replaceSuperscripts_replaceSuperscripts (s : List Char) :
    replaceSuperscripts (replaceSuperscripts s) = replaceSuperscripts s :=
  replaceSuperscripts_eq_self_of_isChain (replaceSuperscripts_isChain s)

theorem isSuperscript_of_carried {d : Char} (hc : carriesSuperscript c = true)
    (h : [c, d] <:+: replaceSuperscripts s) : isSuperscript d = false := by
  obtain ⟨front, rest, htext⟩ := h
  have hchain := replaceSuperscripts_isChain s
  rw [← htext] at hchain
  exact (List.isChain_cons_cons.mp hchain.left_of_append.right_of_append).1 hc

end AnswerCheck.Spelling
