import AnswerCheck.Proofs.Spelling.WrappedRoots

/-! # Bare radicands

After the stage for radicands no root has a bare radicand, and what the stage did can be told from
the text: parentheses were put around matched pieces, and blanks before these pieces were dropped.
Wrapping the roots one by one from the last to the first, in the text as it is by then, comes to the
same.
-/

set_option autoImplicit false

namespace AnswerCheck.Spelling

open Text

variable {s t u run before after between edited : List Char} {c d : Char} {n : Nat} {w : Wrapped}

/-! ## No bare radicand is left -/

theorem stops_closing {p : Char → Bool} (hp : p ')' = false) (t : List Char) : Stops p (')' :: t) :=
  stops_cons.mpr hp

theorem not_root_cons (hc : c ≠ 's') (s : List Char) : ¬ "sqrt".toList <+: c :: s := by
  rintro ⟨rest, hrest⟩
  exact hc (List.cons.inj hrest).1.symm

/-- A closing parenthesis in front of what follows makes no radicand bare. -/
theorem stops_dropWhile_closing (h : Stops inBareRadicand ((s ++ t).dropWhile isInlineBlank)) :
    Stops inBareRadicand ((s ++ ')' :: t).dropWhile isInlineBlank) := by
  induction s with
  | nil => exact stops_closing rfl t
  | cons c s ih =>
    rw [List.cons_append] at h ⊢
    by_cases hc : isInlineBlank c = true
    · rw [List.dropWhile_cons_of_pos hc] at h ⊢
      exact ih h
    · rw [List.dropWhile_cons_of_neg hc] at h ⊢
      exact stops_cons.mpr (stops_cons.mp h)

theorem HasNoBareRadicand.closing (h : HasNoBareRadicand (s ++ t)) : HasNoBareRadicand (s ++ ')' :: t) := by
  induction s using roots_induction with
  | nil => exact (hasNoBareRadicand_cons_iff (not_root_cons (by decide) t)).mpr h
  | root s ih =>
    rw [List.append_assoc] at h ⊢
    obtain ⟨hstop, hs⟩ := hasNoBareRadicand_root_iff.mp h
    exact hasNoBareRadicand_root_iff.mpr ⟨stops_dropWhile_closing hstop, ih hs⟩
  | char c s hc ih =>
    refine (hasNoBareRadicand_cons_iff fun hroot => hc ?_).mpr (ih (h.of_suffix (List.suffix_cons c _)))
    exact root_prefix_append (stops_closing rfl t) (List.cons_ne_nil c s) hroot

theorem HasNoBareRadicand.wrapRadicand (h : HasNoBareRadicand s) :
    Stops inBareRadicand ((wrapRadicand s).dropWhile isInlineBlank) ∧
      HasNoBareRadicand (wrapRadicand s) := by
  by_cases hstop : Stops inBareRadicand (s.dropWhile isInlineBlank)
  · rw [wrapRadicand_eq_self hstop]
    exact ⟨hstop, h⟩
  · rw [wrapRadicand_of_not_stops hstop]
    have hsuffix := h.of_suffix (List.dropWhile_suffix isInlineBlank)
    rw [← append_radicandOf (s.dropWhile isInlineBlank)] at hsuffix
    exact ⟨stops_cons.mpr rfl,
      (hasNoBareRadicand_cons_iff (not_root_cons (by decide) _)).mpr hsuffix.closing⟩

/-- A character of the output that no root starts with is one of the text. -/
theorem of_wrapRadicands_eq_cons (h : wrapRadicands s = d :: u) (hd : d ≠ 's') :
    ∃ s', s = d :: s' ∧ wrapRadicands s' = u := by
  unfold wrapRadicands at h
  split at h
  · cases h
  · exact absurd (List.cons.inj h).1.symm hd
  · obtain ⟨rfl, hu⟩ := List.cons.inj h
    exact ⟨_, rfl, hu⟩

theorem root_prefix_of_wrapRadicands (h : "sqrt".toList <+: c :: wrapRadicands s) :
    "sqrt".toList <+: c :: s := by
  obtain ⟨rest, hrest⟩ := h
  have hname : 's' :: 'q' :: 'r' :: 't' :: rest = c :: wrapRadicands s := hrest
  obtain ⟨rfl, hq⟩ := List.cons.inj hname
  obtain ⟨s₁, rfl, hr⟩ := of_wrapRadicands_eq_cons hq.symm (by decide)
  obtain ⟨s₂, rfl, ht⟩ := of_wrapRadicands_eq_cons hr (by decide)
  obtain ⟨s₃, rfl, -⟩ := of_wrapRadicands_eq_cons ht (by decide)
  exact ⟨s₃, rfl⟩

theorem hasNoBareRadicand_wrapRadicands (s : List Char) : HasNoBareRadicand (wrapRadicands s) := by
  induction s using roots_induction with
  | nil => exact wrapRadicands_eq_self_iff.mp rfl
  | root s ih =>
    rw [wrapRadicands_root]
    exact hasNoBareRadicand_root_iff.mpr ih.wrapRadicand
  | char c s hc ih =>
    rw [wrapRadicands_cons hc]
    exact (hasNoBareRadicand_cons_iff fun hroot => hc (root_prefix_of_wrapRadicands hroot)).mpr ih

/-! ## From the last root to the first -/

/-- Wraps the radicands one by one: always of the last root in the part of the text that is still to
be searched, where the part after it is as it was edited so far. -/
inductive WrapsFromRight : List Char → List Char → List Char → Prop where
  /-- No root is left to wrap. -/
  | done {searched edited : List Char} (h : ¬ "sqrt".toList <:+: searched) :
      WrapsFromRight searched edited (searched ++ edited)
  /-- The last root that is left. -/
  | root {before between edited out : List Char} (h : ¬ "sqrt".toList <:+: between)
      (hmore : WrapsFromRight before ("sqrt".toList ++ wrapRadicand (between ++ edited)) out) :
      WrapsFromRight (before ++ ("sqrt".toList ++ between)) edited out

theorem stops_name (s : List Char) : Stops "qrt".toList.contains ("sqrt".toList ++ s) :=
  stops_cons.mpr rfl

theorem WrapsFromRight.eq_wrapRadicands {searched : List Char}
    (h : WrapsFromRight searched (wrapRadicands s) u) (hs : Stops "qrt".toList.contains s) :
    u = wrapRadicands (searched ++ s) := by
  generalize hedited : wrapRadicands s = edited at h
  induction h generalizing s with
  | done hnone => rw [wrapRadicands_append_of_rootless hnone hs, hedited]
  | @root before between edited out hnone _ ih =>
    rw [ih (s := "sqrt".toList ++ (between ++ s)) (stops_name _)]
    · simp only [List.append_assoc]
    · rw [wrapRadicands_root, wrapRadicands_append_of_rootless hnone hs, hedited]

theorem exists_last_occurrence (ht : t ≠ []) (h : t <:+: s) :
    ∃ before after, s = before ++ (t ++ after) ∧ ¬ t <:+: after := by
  induction s with
  | nil => exact absurd (List.infix_nil.mp h) ht
  | cons c s ih =>
    by_cases hs : t <:+: s
    · obtain ⟨before, after, rfl, hafter⟩ := ih hs
      exact ⟨c :: before, after, rfl, hafter⟩
    · obtain ⟨after, hsplit⟩ := (List.infix_cons_iff.mp h).resolve_right hs
      refine ⟨[], after, hsplit.symm, fun hafter => hs (hafter.trans ?_)⟩
      obtain ⟨d, t, rfl⟩ := List.exists_cons_of_ne_nil ht
      obtain ⟨-, rfl⟩ := List.cons.inj hsplit
      exact (List.suffix_append t after).isInfix

theorem exists_wrapsFromRight (searched edited : List Char) : ∃ u, WrapsFromRight searched edited u := by
  induction hn : searched.length using Nat.strongRecOn generalizing searched edited with
  | ind n ih =>
    by_cases hroot : "sqrt".toList <:+: searched
    · have hname : "sqrt".toList ≠ [] := List.cons_ne_nil 's' _
      obtain ⟨before, between, rfl, hnone⟩ := exists_last_occurrence hname hroot
      have hshort : before.length < n := by
        have hpos := List.length_pos_iff.mpr hname
        rw [← hn, List.length_append, List.length_append]
        omega
      obtain ⟨u, hu⟩ := ih before.length hshort before _ rfl
      exact ⟨u, .root hnone hu⟩
    · exact ⟨_, .done hroot⟩

/-- Edited from the last root to the first, the text comes out as `wrapRadicands` has it. -/
theorem wrapsFromRight_iff : WrapsFromRight t [] u ↔ u = wrapRadicands t := by
  have heq {u : List Char} (h : WrapsFromRight t [] u) : u = wrapRadicands t := by
    have hself := WrapsFromRight.eq_wrapRadicands (s := []) h (stops_nil _)
    rwa [List.append_nil] at hself
  refine ⟨heq, ?_⟩
  rintro rfl
  obtain ⟨u, hu⟩ := exists_wrapsFromRight t []
  exact heq hu ▸ hu

/-! ## What was written -/

theorem isInlineBlank_of_inBareRadicand (h : inBareRadicand c = true) : isInlineBlank c = false := by
  have hblank : isBlank c = false := by
    obtain h | h := Bool.or_eq_true_iff.mp h
    · exact isBlank_of_isAlphanum h
    · obtain rfl := of_decide_eq_true h
      rfl
  rw [isInlineBlank, hblank]
  rfl

theorem dropWhile_of_bare (h : ¬ Stops inBareRadicand s) : s.dropWhile isInlineBlank = s := by
  cases s with
  | nil => rfl
  | cons c s =>
    have hc : inBareRadicand c = true := by simpa [stops_cons] using h
    exact dropWhile_of_stops (stops_cons.mpr (isInlineBlank_of_inBareRadicand hc))

namespace Wrapped

/-- What the stage for radicands wrote into the text. -/
structure Wraps (w : Wrapped) (s : List Char) : Prop where
  sound : w.Sound
  original_eq : w.original = s
  written_eq : w.written = wrapRadicands s

theorem Wraps.char (hw : w.Wraps s) (h : ¬ "sqrt".toList <+: c :: s) : (char c w).Wraps (c :: s) :=
  ⟨hw.sound, congrArg _ hw.original_eq, by rw [wrapRadicands_cons h, written, hw.written_eq]⟩

theorem Wraps.root (hw : w.Wraps s) : ∃ v : Wrapped, v.Wraps ("sqrt".toList ++ s) ∧ w.calls ⊆ v.calls ∧
    (¬ Stops inBareRadicand (wrapRadicands s) →
      "sqrt".toList ++ ('(' :: (radicandOf (wrapRadicands s)).1 ++ [')']) ∈ v.calls) := by
  obtain ⟨v, hv, horiginal, hwritten, hcalls, hcall⟩ := exists_root hw.sound
  rw [hw.written_eq] at hwritten hcall
  refine ⟨v, ⟨hv, by rw [horiginal, hw.original_eq], by rw [hwritten, wrapRadicands_root]⟩, hcalls, ?_⟩
  intro hbare
  rw [dropWhile_of_bare hbare] at hcall
  exact hcall hbare

/-- Calls written after a root stay, whatever stands before that root. -/
theorem Wraps.prepend (hw : w.Wraps ("sqrt".toList ++ s)) (t : List Char) :
    ∃ v : Wrapped, v.Wraps (t ++ ("sqrt".toList ++ s)) ∧ w.calls ⊆ v.calls := by
  induction t using roots_induction with
  | nil => exact ⟨w, hw, List.Subset.refl _⟩
  | root t ih =>
    obtain ⟨v, hv, hcalls⟩ := ih
    obtain ⟨v', hv', hmore, -⟩ := hv.root
    exact ⟨v', hv', List.Subset.trans hcalls hmore⟩
  | char c t hc ih =>
    obtain ⟨v, hv, hcalls⟩ := ih
    have hroot := root_prefix_append (stops_name s) (List.cons_ne_nil c t)
    exact ⟨.char c v, hv.char (mt hroot hc), hcalls⟩

theorem exists_wraps (s : List Char) : ∃ w : Wrapped, w.Wraps s := by
  induction s using roots_induction with
  | nil => exact ⟨done, trivial, rfl, rfl⟩
  | root s ih =>
    obtain ⟨w, hw⟩ := ih
    obtain ⟨v, hv, -⟩ := hw.root
    exact ⟨v, hv⟩
  | char c s hc ih =>
    obtain ⟨w, hw⟩ := ih
    exact ⟨char c w, hw.char hc⟩

end Wrapped

theorem matched_wrapRadicands (s : List Char) : Matched (wrapRadicands s) ↔ Matched s := by
  obtain ⟨w, hw⟩ := Wrapped.exists_wraps s
  rw [Matched, Matched, ← hw.written_eq, hw.sound.openAfter?_written, hw.original_eq]

/-! ## Roots of roots -/

/-- The names of `n` roots, one directly after the other, before a text. -/
def rootsBefore : Nat → List Char → List Char
  | 0, s => s
  | n + 1, s => "sqrt".toList ++ rootsBefore n s

/-- A text in `n` calls of the root. -/
def nestedCalls : Nat → List Char → List Char
  | 0, s => s
  | n + 1, s => "sqrt".toList ++ ('(' :: nestedCalls n s ++ [')'])

theorem head?_wrapRadicands (s : List Char) : (wrapRadicands s).head? = s.head? := by
  unfold wrapRadicands
  split <;> rfl

/-- A radicand that a root got parentheses for is read together with that root. -/
theorem radicandOf_wrapRadicand (h : ¬ Stops inBareRadicand s) :
    radicandOf ("sqrt".toList ++ wrapRadicand s) =
      ("sqrt".toList ++ ('(' :: (radicandOf s).1 ++ [')']), (radicandOf s).2) := by
  have hbare := h
  rw [← dropWhile_of_bare h] at hbare
  rw [wrapRadicand_of_not_stops hbare, dropWhile_of_bare h, radicandOf_call (matched_radicandOf s)]

section Run

variable (hrun : ∀ c ∈ run, inBareRadicand c = true) (hne : run ≠ []) (hroot : ¬ "sqrt".toList <:+: run)
  (hafter : Stops inBareRadicand after)

include hrun hne

theorem bare_rootsBefore (n : Nat) : ¬ Stops inBareRadicand (wrapRadicands (rootsBefore n (run ++ after))) := by
  have hhead {s : List Char} (hs : s ≠ []) (hbare : ∀ c ∈ s, inBareRadicand c = true) (t : List Char) :
      ¬ Stops inBareRadicand (wrapRadicands (s ++ t)) := by
    obtain ⟨c, s, rfl⟩ := List.exists_cons_of_ne_nil hs
    intro hstop
    rw [Stops, head?_wrapRadicands] at hstop
    have hc := hstop c rfl
    rw [hbare c List.mem_cons_self] at hc
    cases hc
  cases n with
  | zero => exact hhead hne hrun after
  | succ n => exact hhead (List.cons_ne_nil 's' _) bare_name _

include hroot hafter

/-- A run is the radicand of the last of the roots before it, with that root it is the radicand of
the root before, and so on. -/
theorem radicandOf_rootsBefore (n : Nat) : radicandOf (wrapRadicands (rootsBefore n (run ++ after))) =
    (nestedCalls n (run ++ (argumentsOf (wrapRadicands after)).1), (argumentsOf (wrapRadicands after)).2) := by
  induction n with
  | zero =>
    have hstop : Stops inBareRadicand (wrapRadicands after) := by
      rwa [Stops, head?_wrapRadicands]
    have hname : "qrt".toList.all inBareRadicand = true := rfl
    rw [rootsBefore, wrapRadicands_append_of_rootless hroot (hafter.mono fun c hc => ?_),
      radicandOf_append hrun hstop]
    · rfl
    · exact List.all_eq_true.mp hname c (List.contains_iff_mem.mp hc)
  | succ n ih =>
    rw [rootsBefore, wrapRadicands_root, radicandOf_wrapRadicand (bare_rootsBefore hrun hne n), ih]
    rfl

theorem wrapRadicands_rootsBefore (n : Nat) : wrapRadicands (rootsBefore n (run ++ after)) =
    nestedCalls n (run ++ (argumentsOf (wrapRadicands after)).1) ++ (argumentsOf (wrapRadicands after)).2 := by
  rw [← append_radicandOf (wrapRadicands _), radicandOf_rootsBefore hrun hne hroot hafter]

/-- More roots before them leave the calls as they are. -/
theorem nestedCalls_within (hn : 0 < n) (before : List Char) :
    nestedCalls n (run ++ (argumentsOf (wrapRadicands after)).1) <:+:
      wrapRadicands (before ++ rootsBefore n (run ++ after)) := by
  obtain ⟨n, rfl⟩ := Nat.exists_eq_add_one_of_ne_zero hn.ne'
  obtain ⟨w, hw⟩ := Wrapped.exists_wraps (rootsBefore n (run ++ after))
  obtain ⟨v, hv, -, hcall⟩ := hw.root
  obtain ⟨v', hv', hcalls⟩ := hv.prepend before
  have hmem := hcall (bare_rootsBefore hrun hne n)
  rw [radicandOf_rootsBefore hrun hne hroot hafter] at hmem
  have hinfix := Wrapped.infix_of_mem_calls (hcalls hmem)
  rwa [hv'.written_eq] at hinfix

end Run

/-- Wrapping ends and leaves no bare radicand; it only puts parentheses around matched pieces and drops
the blanks before these, keeps matched parentheses matched and has nothing to do a second time. Roots
before a run, with what that is called on, become calls in each other. -/
theorem radicands_wrapped (t : List Char) :
    (∀ u, WrapsFromRight t [] u ↔ u = wrapRadicands t) ∧
      HasNoBareRadicand (wrapRadicands t) ∧
      (∃ w : Wrapped, w.Sound ∧ w.original = t ∧ w.written = wrapRadicands t) ∧
      (Matched t → Matched (wrapRadicands t)) ∧
      wrapRadicands (wrapRadicands t) = wrapRadicands t ∧
      ∀ (n : Nat) (run : List Char), 0 < n → run ≠ [] → (∀ c ∈ run, c.isAlphanum = true) →
        ¬ "sqrt".toList <:+: run →
          (t = rootsBefore n run → wrapRadicands t = nestedCalls n run) ∧
          ∀ before after : List Char, Stops inBareRadicand after →
            t = before ++ rootsBefore n (run ++ after) →
              nestedCalls n (run ++ (argumentsOf (wrapRadicands after)).1) <:+: wrapRadicands t := by
  obtain ⟨w, hw⟩ := Wrapped.exists_wraps t
  have hdone := hasNoBareRadicand_wrapRadicands t
  refine ⟨fun u => wrapsFromRight_iff, hdone, ⟨w, hw.sound, hw.original_eq, hw.written_eq⟩,
    (matched_wrapRadicands t).mpr, wrapRadicands_eq_self_iff.mpr hdone, ?_⟩
  intro n run hn hne halnum hroot
  have hrun : ∀ c ∈ run, inBareRadicand c = true := by
    intro c hc
    rw [inBareRadicand, halnum c hc]
    rfl
  constructor
  · rintro rfl
    have hwrap := wrapRadicands_rootsBefore hrun hne hroot (stops_nil _) n
    rw [List.append_nil] at hwrap
    simpa [wrapRadicands, argumentsOf, parenthesis?] using hwrap
  · rintro before after hafter rfl
    exact nestedCalls_within hrun hne hroot hafter hn before

theorem radicands_wrapped_twice :
    Matched "1+sqrtsqrtabs(x)".toList ∧ Matched (wrapRadicands "1+sqrtsqrtabs(x)".toList) ∧
      nestedCalls 2 "abs(x)".toList <:+: wrapRadicands "1+sqrtsqrtabs(x)".toList := by
  have hmatched : Matched "1+sqrtsqrtabs(x)".toList := rfl
  have hrun : "abs".toList.all Char.isAlphanum = true := rfl
  have hroot : ¬ "sqrt".toList <:+: "abs".toList := fun h => absurd h.length_le (by decide)
  have hafter : Stops inBareRadicand "(x)".toList := stops_cons.mpr rfl
  obtain ⟨-, -, -, hkept, -, hnested⟩ := radicands_wrapped "1+sqrtsqrtabs(x)".toList
  obtain ⟨-, hinfix⟩ :=
    hnested 2 "abs".toList (by decide) (List.cons_ne_nil 'a' _) (List.all_eq_true.mp hrun) hroot
  exact ⟨hmatched, hkept hmatched, hinfix "1+".toList "(x)".toList hafter rfl⟩

end AnswerCheck.Spelling
