import AnswerCheck.Proofs.Spelling.Respelling
import AnswerCheck.Proofs.Spelling.StarPairs

/-! # Powers written with two stars mean powers

The rule for stars takes the first character of an exponent, which may be the base of the next power.
So in a chain a pass misses powers whose base is a single character. No two of those are neighbours,
and the next pass writes them all.
-/

set_option autoImplicit false

namespace AnswerCheck.Spelling

open Text Grammar

variable {s u v start : List Char} {base gap exponent : Char → Bool} {back : List Char → Prop}

/-! ## The rule for stars -/

theorem gap_of_isSolid (hgap : ∀ c, gap c = true → isBlank c = true) {c : Char} (hc : isSolid c = true) :
    gap c = false := by
  rw [Bool.eq_false_iff]
  intro hblank
  exact absurd (hgap c hblank) (Bool.eq_false_iff.mp (isBlank_of_isSolid hc))

theorem ExponentStart.read (h : ExponentStart start) (accepts : Char → Bool) (rest : List Char) :
    ∃ c, opensOperand c = true ∧
      exponentStart? accepts (start ++ rest) = if accepts c then some (start, rest) else none := by
  cases h with
  | @plain c hc =>
    have hminus : c ≠ '-' := ne_of_kind hc (by decide)
    exact ⟨c, hc, if_neg hminus⟩
  | @minus c hc => exact ⟨c, hc, rfl⟩

/-- Two stars between a character and an exponent are read by the rule or not, whatever follows. -/
theorem starred?_power {c : Char} (hgap : ∀ c, gap c = true → isBlank c = true) (hstart : ExponentStart start)
    (rest : List Char) :
    ∃ d, opensOperand d = true ∧
      starred? base gap exponent (c :: '*' :: '*' :: (start ++ rest)) =
        if base c && exponent d then some (c :: '^' :: start, rest) else none := by
  obtain ⟨d, hd, hread⟩ := hstart.read exponent rest
  have hstars : ('*' :: '*' :: (start ++ rest)).dropWhile gap = '*' :: '*' :: (start ++ rest) := by
    refine dropWhile_of_stops (stops_cons.mpr ?_)
    rw [Bool.eq_false_iff]
    intro hblank
    exact absurd (hgap '*' hblank) (by decide)
  have hafter : (start ++ rest).dropWhile gap = start ++ rest := by
    refine dropWhile_of_stops (Stops.append (fun c hc => ?_) (by cases hstart <;> simp) rest)
    exact gap_of_isSolid hgap (hstart.solid c (List.mem_of_mem_head? hc))
  refine ⟨d, hd, ?_⟩
  rw [starred?]
  by_cases hbase : base c = true
  · simp only [hbase, if_true, hstars, hafter, hread, Bool.true_and]
    split <;> rfl
  · simp [hbase]

/-- Where no two stars stand side by side the rule finds nothing. -/
theorem replaceAll_starred_append {c : Char} (hs : s.IsChain NotBothStars) (hc : c ≠ '*')
    (hgap : gap c = false) (rest : List Char) :
    replaceAll (starred? base gap exponent) (s ++ c :: rest) =
      s ++ replaceAll (starred? base gap exponent) (c :: rest) := by
  induction s with
  | nil => rfl
  | cons d s ih =>
    have hnone : starred? base gap exponent (d :: (s ++ c :: rest)) = none := by
      have hchain : (s.dropWhile gap).IsChain NotBothStars :=
        hs.suffix ((List.dropWhile_suffix gap).trans (List.suffix_cons d s))
      rw [starred?, dropWhile_append_stops (stops_cons.mpr hgap)]
      generalize s.dropWhile gap = gone at hchain
      split
      · split
        · next after hstars =>
          rcases gone with - | ⟨d, - | ⟨d', gone⟩⟩
          · exact absurd (List.cons.inj hstars).1 hc
          · exact absurd (List.cons.inj (List.cons.inj hstars).2).1 hc
          · have hboth := (List.isChain_cons_cons.mp hchain).1 (List.cons.inj hstars).1
            exact absurd (List.cons.inj (List.cons.inj hstars).2).1 hboth
        · rfl
      · rfl
    rw [List.cons_append, replaceAll_cons_none hnone, ih hs.of_cons, List.cons_append]

variable (base gap exponent) in
/-- What the rule makes of a power, from its segment on. -/
theorem replaceAll_starred_power (hs : s.IsChain NotBothStars) (hend : EndsIn BaseEnd s)
    (hgap : ∀ c, gap c = true → isBlank c = true) (hstar : base '*' = false) (hstart : ExponentStart start)
    (rest : List Char) :
    ∃ c d, closesOperand c = true ∧ opensOperand d = true ∧
      replaceAll (starred? base gap exponent) (s ++ '*' :: '*' :: (start ++ rest)) =
        if base c && exponent d then s ++ '^' :: (start ++ replaceAll (starred? base gap exponent) rest)
        else s ++ '*' :: '*' :: replaceAll (starred? base gap exponent) (start ++ rest) := by
  obtain ⟨front, c, rfl, hc⟩ := endsIn_base_iff.mp hend
  obtain ⟨d, hd, hread⟩ : ∃ d, opensOperand d = true ∧
      starred? base gap exponent (c :: '*' :: '*' :: (start ++ rest)) = _ :=
    starred?_power hgap hstart rest
  have hsolid : isSolid c = true := segmentEnd_base.solid (.mk hc) c (by simp)
  have hne : c ≠ '*' := ne_of_kind hsolid rfl
  have hscan : replaceAll (starred? base gap exponent) (front ++ c :: '*' :: '*' :: (start ++ rest)) = _ :=
    replaceAll_starred_append hs.left_of_append hne (gap_of_isSolid hgap hsolid) _
  have hnone (rest : List Char) : starred? base gap exponent ('*' :: rest) = none := by
    rw [starred?, hstar]
    rfl
  refine ⟨c, d, hc, hd, ?_⟩
  rw [List.append_assoc, List.singleton_append, hscan]
  split at hread
  · next hmatch =>
    have htext : c :: '*' :: '*' :: (start ++ rest) = (c :: '*' :: '*' :: start) ++ rest := by simp
    rw [htext] at hread ⊢
    rw [replaceAll_append_some (by simp) hread, if_pos hmatch]
    simp
  · next hmatch =>
    rw [replaceAll_cons_none hread, replaceAll_cons_none (hnone _), replaceAll_cons_none (hnone _),
      if_neg hmatch]
    simp

theorem replaceAll_tight_power (hs : s.IsChain NotBothStars) (hend : EndsIn BaseEnd s)
    (hstart : ExponentStart start) (rest : List Char) :
    replaceAll tightPower? (s ++ '*' :: '*' :: (start ++ rest)) =
      s ++ '^' :: (start ++ replaceAll tightPower? rest) := by
  obtain ⟨c, d, hc, hd, hreplace⟩ := replaceAll_starred_power
    (fun c => c.isAlphanum || c = ')' || c = ']') (fun _ => false) opensOperand hs hend (by simp) rfl
    hstart rest
  rw [closesOperand] at hc
  rwa [if_pos (by rw [hc, hd]; rfl)] at hreplace

theorem replaceAll_spaced_power (hs : s.IsChain NotBothStars) (hend : EndsIn BaseEnd s)
    (hstart : ExponentStart start) (rest : List Char) :
    replaceAll spacedPower? (s ++ '*' :: '*' :: (start ++ rest)) =
        s ++ '^' :: (start ++ replaceAll spacedPower? rest) ∨
      replaceAll spacedPower? (s ++ '*' :: '*' :: (start ++ rest)) =
        s ++ '*' :: '*' :: replaceAll spacedPower? (start ++ rest) := by
  obtain ⟨c, d, -, -, hreplace⟩ := replaceAll_starred_power
    (fun c => c.isDigit || c = 'x' || c = ')' || c = ']') isInlineBlank
    (fun c => c.isDigit || c = 'x' || c = '(') hs hend (fun c => isBlank_of_isInlineBlank) rfl hstart rest
  split at hreplace
  · exact Or.inl hreplace
  · exact Or.inr hreplace

/-! ## Powers one after the other -/

theorem SegmentEnd.endsIn_base (hback : SegmentEnd back) (h : EndsIn back s) : EndsIn BaseEnd s := by
  obtain ⟨front, t, rfl, ht⟩ := h
  exact (hback.base ht).append front

namespace Starred

/-- Induction along the powers of a text: the text after an exponent starts is shorter, and so is the
text after the next stars if the exponent ends before them. -/
theorem powers {P : List Char → List Char → Prop} (hback : SegmentEnd back) (same : ∀ s, P s s)
    (power : ∀ {s start u v}, EndsIn back s → ExponentStart start → P (start ++ u) (start ++ v) →
      (P u v ∨ EndsIn back start ∧
        ∃ u' v', u = '^' :: u' ∧ v = '*' :: '*' :: v' ∧ StartsExponent u' ∧ P u' v') →
      P (s ++ '^' :: (start ++ u)) (s ++ '*' :: '*' :: (start ++ v)))
    (h : Starred back u v) : P u v := by
  induction hn : v.length using Nat.strongRecOn generalizing u v with
  | ind n ih =>
    cases h with
    | same => exact same _
    | power hs hu h =>
      obtain ⟨start, u, rfl, hstart⟩ := hu
      obtain ⟨v, rfl, hrest⟩ := h.exponent hback hstart
      simp only [List.length_append, List.length_cons] at hn
      refine power hs hstart (ih _ (by simp; omega) h rfl) ?_
      obtain hrest | ⟨hend, u', v', rfl, rfl, hu', h'⟩ := hrest
      · exact Or.inl (ih _ (by omega) hrest rfl)
      · simp only [List.length_cons] at hn
        exact Or.inr ⟨hend, u', v', rfl, rfl, hu', ih _ (by omega) h' rfl⟩

theorem not_endsIn_raised (h : ExponentStart start) : ¬ EndsIn RaisedEnd start := by
  rintro ⟨front, t, rfl, ht⟩
  obtain ⟨rest, rfl⟩ := ht.eq_caret
  exact h.not_mem (by simp)

theorem raisedEnd_of_endsIn (h : ExponentStart start) (hend : EndsIn BaseEnd start) :
    RaisedEnd ('^' :: start) := by
  obtain ⟨front, c, htext, hc⟩ := endsIn_base_iff.mp hend
  have hboth {d : Char} (hd : opensOperand d = true) (heq : c = d) : d.isAlphanum = true := by
    subst heq
    simp only [closesOperand, opensOperand, Bool.or_eq_true, decide_eq_true_eq] at hc hd
    obtain hc | rfl := hc
    · exact hc
    · simp at hd
  cases h with
  | @plain d hd =>
    have hsplit : [] ++ [d] = front ++ [c] := htext
    obtain ⟨-, hlast⟩ := List.append_inj' hsplit rfl
    exact .plain (hboth hd (List.cons.inj hlast).1.symm)
  | @minus d hd =>
    have hsplit : ['-'] ++ [d] = front ++ [c] := htext
    obtain ⟨-, hlast⟩ := List.append_inj' hsplit rfl
    exact .minus (hboth hd (List.cons.inj hlast).1.symm)

/-- After the rule for tight stars, the base of a power that was missed is a short exponent. -/
theorem tight (h : Starred BaseEnd u v) (hu : u.IsChain NotBothStars) :
    Starred RaisedEnd u (replaceAll tightPower? v) := by
  refine h.powers (P := fun u v => u.IsChain NotBothStars → Starred RaisedEnd u (replaceAll tightPower? v))
    segmentEnd_base (fun s hs => ?_) (fun {s start u v} hend hstart _ hrest hchain => ?_) hu
  · rw [tightPower?, replaceAll_eq_self fun t ht => starred?_eq_none (hs.suffix ht)]
    exact same s
  · rw [replaceAll_tight_power hchain.left_of_append hend hstart]
    have hchain' : u.IsChain NotBothStars := hchain.suffix ⟨s ++ '^' :: start, by simp⟩
    obtain hrest | ⟨hend', u', v', rfl, rfl, hu', hrest⟩ := hrest
    · have hafter := (hrest hchain').append (s ++ '^' :: start)
      simpa using hafter
    · -- The exponent ends before the next stars, and the rule goes on after them.
      have hnone (rest : List Char) : tightPower? ('*' :: rest) = none := rfl
      have hafter := power ⟨s, _, rfl, raisedEnd_of_endsIn hstart hend'⟩ hu'
        (hrest hchain'.of_cons)
      rw [replaceAll_cons_none (hnone _), replaceAll_cons_none (hnone _)]
      simpa using hafter

/-- The rule for stars with blanks leaves nothing else behind. -/
theorem spaced (h : Starred RaisedEnd u v) (hu : u.IsChain NotBothStars) :
    Starred RaisedEnd u (replaceAll spacedPower? v) := by
  refine h.powers (P := fun u v => u.IsChain NotBothStars → Starred RaisedEnd u (replaceAll spacedPower? v))
    segmentEnd_raised (fun s hs => ?_) (fun {s start u v} hend hstart hwhole hrest hchain => ?_) hu
  · rw [spacedPower?, replaceAll_eq_self fun t ht => starred?_eq_none (hs.suffix ht)]
    exact same s
  · have hchain' : (start ++ u).IsChain NotBothStars := hchain.suffix ⟨s ++ ['^'], by simp⟩
    obtain hreplace | hreplace := replaceAll_spaced_power hchain.left_of_append
      (segmentEnd_raised.endsIn_base hend) hstart v
    · obtain hrest | ⟨hend', -⟩ := hrest
      · have hafter := (hrest (hchain'.suffix (List.suffix_append start u))).append (s ++ '^' :: start)
        rw [hreplace]
        simpa using hafter
      · exact absurd hend' (not_endsIn_raised hstart)
    · rw [hreplace]
      exact power hend ⟨start, u, rfl, hstart⟩ (hwhole hchain')

/-- Where the bases that were missed are short exponents, the rule for tight stars misses nothing. -/
theorem tight_eq (h : Starred RaisedEnd u v) (hu : u.IsChain NotBothStars) :
    replaceAll tightPower? v = u := by
  refine h.powers (P := fun u v => u.IsChain NotBothStars → replaceAll tightPower? v = u)
    segmentEnd_raised (fun s hs => ?_) (fun {s start u v} hend hstart _ hrest hchain => ?_) hu
  · rw [tightPower?, replaceAll_eq_self fun t ht => starred?_eq_none (hs.suffix ht)]
  · rw [replaceAll_tight_power hchain.left_of_append (segmentEnd_raised.endsIn_base hend)
      hstart]
    obtain hrest | ⟨hend', -⟩ := hrest
    · rw [hrest (hchain.suffix ⟨s ++ '^' :: start, by simp⟩)]
    · exact absurd hend' (not_endsIn_raised hstart)

/-! ## Passes -/

variable {keeps : List Char → Prop} [Inherited keeps] {e : Expr}

omit [Inherited keeps] in
theorem not_mem (hback : SegmentEnd back) (h : Starred back u v) (hu : Means keeps (u.map plainMinus) e)
    {c : Char} (hplain : plainMinus c = c) (hstar : c ≠ '*') (hblank : isBlank c = false)
    (hdigit : c.isDigit = false) (hsymbols : symbols.contains c = false) : c ∉ v := by
  intro hc
  have hmem : c ∈ v.map plainMinus := hplain ▸ List.mem_map_of_mem hc
  obtain hmem | rfl := (h.map_plainMinus hback).mem hmem
  · exact hu.not_mem hblank hdigit hsymbols hmem
  · exact hstar rfl

/-- The stages before the one for stars. -/
theorem stages_before (hback : SegmentEnd back) (h : Starred back u v)
    (hu : Means keeps (u.map plainMinus) e) :
    ∃ u', Means keeps u' e ∧ Starred back u' (replaceSuperscripts (wrapRadicands (tidyRoots (spellBars
      (replaceSymbols (spellCommands (stripDelimiters v))))))) := by
  have hdollar : '$' ∉ v := h.not_mem hback hu rfl (by decide) rfl rfl rfl
  have hbackslash : '\\' ∉ v := h.not_mem hback hu rfl (by decide) rfl rfl rfl
  have hplain := h.map_plainMinus hback
  have hbar : '|' ∉ v.map plainMinus := by
    intro hc
    obtain hc | hc := hplain.mem hc
    · exact hu.not_mem rfl rfl rfl hc
    · cases hc
  have hsymbols : replaceSymbols v = v.map plainMinus := by
    refine (Respelled.refl v).replaceSymbols_eq fun c hc => ?_
    obtain hc | rfl := hplain.mem hc
    · exact hu.symbolSpelling? c hc
    · rfl
  rw [stripDelimiters_eq_self hdollar hbackslash, spellCommands_eq_self hbackslash, hsymbols,
    spellBars_eq_self hbar]
  obtain ⟨u', hthin, hroots⟩ := hplain.thinned hback (tidyRoots_thinned _)
  have hmeans := hu.thinned hthin
  have hbare := hroots.hasNoBareRadicand (wrapRadicands_eq_self_iff.mp hmeans.wrapRadicands_eq)
  have hsuperscripts : ∀ c ∈ tidyRoots (v.map plainMinus), isSuperscript c = false := by
    intro c hc
    obtain hc | rfl := hroots.mem hc
    · exact hmeans.isSuperscript c hc
    · rfl
  rw [wrapRadicands_eq_self_iff.mpr hbare, replaceSuperscripts_eq_self hsuperscripts]
  exact ⟨u', hmeans, hroots⟩

/-- A pass leaves only such stars behind as the next one takes away. -/
theorem first_pass (h : Starred BaseEnd u v) (hu : Means keeps (u.map plainMinus) e) :
    ∃ u', Means keeps u' e ∧ Starred RaisedEnd u' (pass v) := by
  obtain ⟨u₁, hu₁, h₁⟩ := h.stages_before segmentEnd_base hu
  have hchain := hu₁.isChain
  have h₂ := ((h₁.tight hchain).spaced hchain).tidyScientific segmentEnd_raised
  obtain ⟨u₂, hthin, h₃⟩ := h₂.thinned segmentEnd_raised (tidyBlanks_thinned _)
  exact ⟨u₂, hu₁.tidyScientific_append.1.thinned hthin, h₃⟩

theorem second_pass (h : Starred RaisedEnd u v) (hu : Means keeps u e) : Means keeps (pass v) e := by
  have hplain : Means keeps (u.map plainMinus) e := by rwa [hu.map_plainMinus]
  obtain ⟨u', hu', h'⟩ := h.stages_before segmentEnd_raised hplain
  have hstars : replaceAll spacedPower? u' = u' :=
    replaceAll_eq_self fun t ht => starred?_eq_none (hu'.isChain.suffix ht)
  rw [pass, replaceStars, h'.tight_eq hu'.isChain, hstars]
  exact hu'.tidyScientific_append.1.thinned (tidyBlanks_thinned _)

end Starred

/-! ## Sides of equations -/

/-- Every caret stands directly between the end of a base and the start of an exponent. -/
def HasTightPowers (s : List Char) : Prop :=
  ∀ before after, s = before ++ '^' :: after → EndsIn BaseEnd before ∧ StartsExponent after

/-- The text with two stars for every caret. -/
def withStars (s : List Char) : List Char :=
  s.flatMap fun c => if c = '^' then ['*', '*'] else [c]

theorem withStars_of_not_mem (h : '^' ∉ s) : withStars s = s := by
  induction s with
  | nil => rfl
  | cons c s ih =>
    obtain ⟨hc, hs⟩ := not_or.mp (List.mem_cons.not.mp h)
    rw [withStars, List.flatMap_cons, if_neg (Ne.symm hc), ← withStars, ih hs]
    rfl

theorem HasTightPowers.of_caret (h : HasTightPowers (s ++ '^' :: u)) : HasTightPowers u := by
  intro before after htext
  obtain ⟨hend, hstart⟩ := h (s ++ '^' :: before) after (by simp [htext])
  obtain ⟨front, c, hlast, hc⟩ := endsIn_base_iff.mp hend
  refine ⟨endsIn_base_iff.mpr ?_, hstart⟩
  obtain rfl | ⟨before, d, rfl⟩ := List.eq_nil_or_concat' before
  · obtain ⟨-, hcaret⟩ := List.append_inj' hlast rfl
    obtain rfl := (List.cons.inj hcaret).1
    exact absurd hc (by decide)
  · rw [← List.cons_append, ← List.append_assoc] at hlast
    obtain ⟨-, hlast⟩ := List.append_inj' hlast rfl
    exact ⟨before, c, by rw [hlast], hc⟩

theorem HasTightPowers.of_not_mem (h : '^' ∉ s) : HasTightPowers s := by
  rintro before after rfl
  exact absurd (by simp) h

theorem HasTightPowers.caret (hs : '^' ∉ s) (hend : EndsIn BaseEnd s) (hstart : StartsExponent u)
    (h : HasTightPowers u) : HasTightPowers (s ++ '^' :: u) := by
  intro before after htext
  obtain ⟨m, rfl, hm⟩ | ⟨m, rfl, hm⟩ := List.append_eq_append_iff.mp htext
  · cases m with
    | nil =>
      obtain ⟨-, rfl⟩ := List.cons.inj hm
      rw [List.append_nil]
      exact ⟨hend, hstart⟩
    | cons c m =>
      obtain ⟨rfl, rfl⟩ := List.cons.inj hm
      obtain ⟨hend', hstart'⟩ := h m after rfl
      exact ⟨(hend'.append ['^']).append s, hstart'⟩
  · cases m with
    | nil =>
      obtain ⟨-, rfl⟩ := List.cons.inj hm
      rw [List.append_nil] at hend
      exact ⟨hend, hstart⟩
    | cons c m =>
      obtain ⟨rfl, -⟩ := List.cons.inj hm
      exact absurd (by simp) hs

theorem starred_withStars (h : HasTightPowers s) : Starred BaseEnd s (withStars s) := by
  induction hn : s.length using Nat.strongRecOn generalizing s with
  | ind n ih =>
    by_cases hcaret : '^' ∈ s
    · obtain ⟨before, after, rfl, hbefore⟩ := List.eq_append_cons_of_mem hcaret
      obtain ⟨hend, hstart⟩ := h before after rfl
      have hlength : after.length < n := by
        rw [← hn, List.length_append, List.length_cons]
        omega
      have hwith : withStars (before ++ '^' :: after) = before ++ '*' :: '*' :: withStars after := by
        rw [withStars, List.flatMap_append, ← withStars, withStars_of_not_mem hbefore]
        rfl
      rw [hwith]
      exact .power hend hstart (ih _ hlength h.of_caret rfl)
    · rw [withStars_of_not_mem hcaret]
      exact .same s

/-- A side of an equation whose powers are written with two stars is, once it is spelled in ASCII, a
side with the same expression. -/
theorem ofText_asciiText_withStars {e : Expr} (h : Expr.ofText s = .ok e) (hs : HasTightPowers s) :
    Expr.ofText (asciiText (withStars s)) = .ok e := by
  obtain ⟨hmeans, hnesting⟩ := means_of_ofText h
  obtain ⟨u, hu, hstarred⟩ := (starred_withStars hs).first_pass hmeans
  have hpasses : maxPasses = maxPasses - 2 + 1 + 1 := rfl
  rw [asciiText_eq_iterate, hpasses, Function.iterate_succ_apply, Function.iterate_succ_apply]
  exact ((hstarred.second_pass hu).iterate_pass _).ofText hnesting

/-- A chain in which operands are exponents and bases at once. -/
theorem ofText_asciiText_withStars_chain :
    Expr.ofText "x^x^-2^3".toList =
        .ok (.power .var (.power .var (.neg (.power (.number (Decimal.toFloat ⟨2, 0⟩))
          (.number (Decimal.toFloat ⟨3, 0⟩)))))) ∧
      HasTightPowers "x^x^-2^3".toList ∧
      Expr.ofText (asciiText "x**x**-2**3".toList) =
        .ok (.power .var (.power .var (.neg (.power (.number (Decimal.toFloat ⟨2, 0⟩))
          (.number (Decimal.toFloat ⟨3, 0⟩)))))) := by
  have hside : Expr.ofText "x^x^-2^3".toList =
      .ok (.power .var (.power .var (.neg (.power (.number (Decimal.toFloat ⟨2, 0⟩))
        (.number (Decimal.toFloat ⟨3, 0⟩)))))) := rfl
  have hend {c : Char} (hc : closesOperand c = true) (front : List Char) : EndsIn BaseEnd (front ++ [c]) :=
    endsIn_base_iff.mpr ⟨front, c, rfl, hc⟩
  have hstart {c : Char} (hc : opensOperand c = true) (rest : List Char) : StartsExponent (c :: rest) :=
    ⟨[c], rest, rfl, .plain hc⟩
  have hminus : StartsExponent "-2^3".toList := ⟨['-', '2'], "^3".toList, rfl, .minus rfl⟩
  have hthree : HasTightPowers ['3'] := .of_not_mem (by decide)
  have htwo : HasTightPowers (['-', '2'] ++ '^' :: ['3']) :=
    .caret (by decide) (hend rfl ['-']) (hstart rfl _) hthree
  have hx : HasTightPowers (['x'] ++ '^' :: "-2^3".toList) := .caret (by decide) (hend rfl []) hminus htwo
  have hchain : HasTightPowers (['x'] ++ '^' :: "x^-2^3".toList) :=
    .caret (by decide) (hend rfl []) (hstart rfl _) hx
  exact ⟨hside, hchain, ofText_asciiText_withStars hside hchain⟩

end AnswerCheck.Spelling
