import AnswerCheck.Proofs.Spelling.Segments
import AnswerCheck.Proofs.Spelling.Settling
import AnswerCheck.Proofs.Spelling.Superscripts
import AnswerCheck.Proofs.Spelling.WrappedRoots

/-! # The shape of the ASCII spelling

Blanks are tidied last in a pass, symbols and superscripts before. What the later stages write has no
new symbols and starts and ends like what they read, so that a superscript never comes to stand
after a character that can carry it.
-/

set_option autoImplicit false

namespace AnswerCheck.Spelling

open Text

variable {s t : List Char} {c : Char}

/-! ## Blanks -/

/-- No blanks at the ends, no blanks but spaces and the ends of lines, and single spaces, none of
them before a line feed. -/
structure EvenlySpaced (s : List Char) : Prop where
  left : Stops isBlank s
  right : Stops isBlank s.reverse
  blank : ∀ c ∈ s, isBlank c = true → c = ' ' ∨ c = '\n' ∨ c = '\r'
  next : s.IsChain (Apart (· == ' ') fun d => d == ' ' || d == '\n')

theorem blankRuns_isChain (s : List Char) : (replaceAll blankRun? s).IsChain (Apart (· == ' ') (· == ' ')) := by
  have hinline (c : Char) (hc : (c == ' ') = true) : isInlineBlank c = true := by
    obtain rfl := eq_of_beq hc
    rfl
  refine (isChain_replaceAll hinline (fun t out rest _ hmatch => ?_) fun c t _ hmatch hc => ?_).2
  · obtain ⟨run, rfl, rfl, hne, hrun, hstop⟩ := blankRun?_eq_some hmatch
    refine ⟨run, hne, rfl, List.cons_ne_nil _ _, fun hbefore => ?_, List.isChain_singleton _,
      fun _ _ _ => hstop⟩
    obtain ⟨c, run, rfl⟩ := List.exists_cons_of_ne_nil hne
    have hc := hrun c List.mem_cons_self
    rw [stops_cons.mp hbefore] at hc
    cases hc
  · rw [blankRun?, run?, if_pos (hinline c hc)] at hmatch
    cases hmatch

/-- Spaces before a line feed go. What follows a space is none, so the line feed does not come to stand
after another space. -/
theorem spacesAtEnd_isChain (h : s.IsChain (Apart (· == ' ') (· == ' '))) :
    (replaceAll spaceAtEnd? s).IsChain (Apart (· == ' ') fun d => d == ' ' || d == '\n') := by
  refine (isChain_replaceAll (fun _ => id) (fun t out rest _ hmatch => ?_) fun c t ht hmatch hc => ?_).2
  · obtain ⟨rfl, rfl⟩ := spaceAtEnd?_eq_some hmatch
    refine ⟨[' ', '\n'], List.cons_ne_nil _ _, rfl, List.cons_ne_nil _ _, fun hbefore => ?_,
      List.isChain_singleton _, fun c hlast hc => ?_⟩
    · cases stops_cons.mp hbefore
    · obtain rfl := Option.some.inj hlast
      cases hc
  · obtain rfl := eq_of_beq hc
    intro d hd
    obtain ⟨t, rfl⟩ := List.head?_eq_some_iff.mp hd
    have hspace : (d == ' ') = false := (isChain_cons_iff.mp (h.suffix ht)).1 rfl d rfl
    have hfeed : (d == '\n') = false := by
      rw [beq_eq_false_iff_ne]
      rintro rfl
      cases hmatch
    show (d == ' ' || d == '\n') = false
    rw [hspace, hfeed]
    rfl

theorem isChain_trim {R : Char → Char → Prop} (h : s.IsChain R) : (trim s).IsChain R := by
  obtain ⟨left, right, hs, -⟩ := exists_eq_append_trim s
  have hparts : (left ++ trim s ++ right).IsChain R := by
    rw [← hs]
    exact h
  exact hparts.left_of_append.right_of_append

theorem evenlySpaced_tidyBlanks (s : List Char) : EvenlySpaced (tidyBlanks s) where
  left := stops_trim _
  right := stops_trim_reverse _
  blank _ hc := blank_of_mem_tidyBlanks hc
  next := isChain_trim (spacesAtEnd_isChain (blankRuns_isChain s))

theorem EvenlySpaced.tidyBlanks_eq (h : EvenlySpaced s) : tidyBlanks s = s := by
  have hruns : replaceAll blankRun? s = s := by
    refine replaceAll_eq_self_of_writes fun t out rest ht hmatch => ?_
    obtain ⟨run, rfl, rfl, hne, hrun, -⟩ := blankRun?_eq_some hmatch
    refine ⟨List.cons_ne_nil _ _, ?_⟩
    have hspace {c : Char} (hc : c ∈ run) : c = ' ' := by
      have hinline := hrun c hc
      obtain rfl | rfl | rfl := h.blank c (ht.subset (List.mem_append_left rest hc))
        (isBlank_of_isInlineBlank hinline)
      · rfl
      · cases hinline
      · cases hinline
    -- A second blank would be a space after a space.
    match run with
    | [] => exact absurd rfl hne
    | [c] => rw [hspace List.mem_cons_self]
    | c :: d :: run =>
      have hnext := (List.isChain_cons_cons.mp (h.next.suffix ht)).1
      obtain rfl := hspace List.mem_cons_self
      obtain rfl := hspace (List.mem_cons_of_mem _ List.mem_cons_self)
      cases hnext rfl
  have hends : replaceAll spaceAtEnd? s = s := by
    refine replaceAll_eq_self fun t ht => ?_
    cases hmatch : spaceAtEnd? t with
    | none => rfl
    | some found =>
      obtain ⟨rfl, -⟩ := spaceAtEnd?_eq_some hmatch
      cases (List.isChain_cons_cons.mp (h.next.suffix ht)).1 rfl
  rw [tidyBlanks, hruns, hends, trim_eq_self h.left h.right]

theorem evenlySpaced_of_not_blank (h : ∀ c ∈ s, isBlank c = false) : EvenlySpaced s where
  left c hc := h c (List.mem_of_mem_head? hc)
  right c hc := h c (List.mem_reverse.mp (List.mem_of_mem_head? hc))
  blank c hc hblank := by
    rw [h c hc] at hblank
    cases hblank
  next := by
    induction s with
    | nil => exact List.isChain_nil
    | cons c s ih =>
      obtain ⟨hc, hs⟩ := List.forall_mem_cons.mp h
      refine isChain_cons_iff.mpr ⟨fun hspace => ?_, ih hs⟩
      rw [eq_of_beq hspace] at hc
      cases hc

/-- Words are joined by single spaces. -/
theorem EvenlySpaced.join (hs : EvenlySpaced s) (ht : EvenlySpaced t) (hsne : s ≠ []) (htne : t ≠ []) :
    EvenlySpaced (s ++ ' ' :: t) where
  left := hs.left.append hsne _
  right := by
    rw [List.reverse_append, List.reverse_cons, List.append_assoc]
    exact ht.right.append (List.reverse_ne_nil_iff.mpr htne) _
  blank c hc hblank := by
    obtain hc | hc := List.mem_append.mp hc
    · exact hs.blank c hc hblank
    · obtain rfl | hc := List.mem_cons.mp hc
      · exact Or.inl rfl
      · exact ht.blank c hc hblank
  next := by
    have hstart : Stops (fun d => d == ' ' || d == '\n') t := by
      refine ht.left.mono fun d hd => ?_
      obtain hd | hd := Bool.or_eq_true_iff.mp hd <;> rw [eq_of_beq hd] <;> rfl
    refine isChain_append_iff.mpr ⟨hs.next, isChain_cons_iff.mpr ⟨fun _ => hstart, ht.next⟩, ?_⟩
    intro c hc hspace
    have hlast := hs.right c (List.head?_reverse ▸ hc)
    rw [eq_of_beq hspace] at hlast
    cases hlast

/-! ## Symbols -/

section Symbols

variable (hc : symbolSpelling? c ≠ none)

include hc

theorem not_mem_of_spelled (ht : t.all (fun d => (symbolSpelling? d).isNone) = true) : c ∉ t := by
  intro hmem
  exact hc (Option.isNone_iff_eq_none.mp (List.all_eq_true.mp ht c hmem))

theorem not_mem_replaceSymbols (s : List Char) : c ∉ replaceSymbols s := by
  intro hmem
  obtain ⟨d, -, hd⟩ := List.mem_flatMap.mp hmem
  unfold spellSymbol at hd
  split at hd
  · next spelling hspelling =>
    refine not_mem_of_spelled hc ?_ hd
    unfold symbolSpelling? at hspelling
    split at hspelling <;> cases hspelling <;> rfl
  · next hnone =>
    obtain rfl := List.mem_singleton.mp hd
    exact hc hnone

theorem not_mem_spellBars (hs : c ∉ s) : c ∉ spellBars s := by
  refine mt ((congruence_mem c).settle ((congruence_mem c).replaceAll fun s out rest h => ?_) _ s) hs
  unfold barred? at h
  split at h
  · split at h
    · next inside rest' hrun =>
      obtain ⟨rfl, rfl⟩ := Prod.mk.inj (Option.some.inj h)
      refine ⟨'|' :: inside ++ ['|'], by simp, by simp [(run?_eq_some hrun).1], fun hmem => ?_⟩
      rw [List.mem_append, List.mem_append] at hmem
      obtain (hmem | hmem) | hmem := hmem
      · exact absurd hmem (not_mem_of_spelled hc rfl)
      · simp [hmem]
      · exact absurd hmem (not_mem_of_spelled hc rfl)
    · cases h
  · cases h

theorem not_mem_wrapRadicands (hs : c ∉ s) : c ∉ wrapRadicands s := by
  have hparentheses : c ∉ ['(', ')'] := not_mem_of_spelled hc rfl
  have hwrap {s : List Char} (hs : c ∉ s) : c ∉ wrapRadicand s := by
    by_cases hstop : Stops inBareRadicand (s.dropWhile isInlineBlank)
    · rwa [wrapRadicand_eq_self hstop]
    · have hrest : c ∉ s.dropWhile isInlineBlank := mt (List.dropWhile_sublist _).mem hs
      rw [← append_radicandOf (s.dropWhile isInlineBlank)] at hrest
      rw [wrapRadicand_of_not_stops hstop]
      simp only [List.cons_append, List.mem_cons, List.mem_append, List.not_mem_nil, or_false]
        at hparentheses hrest ⊢
      tauto
  fun_induction wrapRadicands s with
  | case1 => exact hs
  | case2 s ih =>
    simp only [List.mem_cons, not_or] at hs ⊢
    exact ⟨hs.1, hs.2.1, hs.2.2.1, hs.2.2.2.1, hwrap (ih hs.2.2.2.2)⟩
  | case3 d s _ ih =>
    obtain ⟨hd, hs⟩ := not_or.mp (List.mem_cons.not.mp hs)
    exact List.mem_cons.not.mpr (not_or.mpr ⟨hd, ih hs⟩)

theorem not_mem_replaceSuperscripts (hs : c ∉ s) : c ∉ replaceSuperscripts s := by
  refine mt ((congruence_mem c).replaceAll (fun s out rest h => ?_) s) hs
  obtain ⟨base, raised, rfl, -, -, -, -, rfl⟩ := superscripted?_eq_some h
  refine ⟨base :: raised, List.cons_ne_nil _ _, rfl, fun hmem => ?_⟩
  have hwritten : c ∉ "^()+-".toList := not_mem_of_spelled hc rfl
  obtain rfl | hmem := List.mem_cons.mp hmem
  · exact List.mem_cons_self
  · refine absurd hwritten (not_not.mpr ?_)
    obtain rfl | hmem := List.mem_cons.mp hmem
    · decide
    · obtain hmem | rfl | rfl := mem_exponentText hmem
      · obtain ⟨e, -, he⟩ := List.mem_filterMap.mp hmem
        obtain hdigit | rfl | rfl := superscriptSpelling?_cases he
        · exact absurd (symbolSpelling?_of_isDigit hdigit) hc
        · decide
        · decide
      · decide
      · decide

theorem not_mem_replaceStars (hs : c ∉ s) : c ∉ replaceStars s := by
  have hstarred (base gap exponent : Char → Bool) {s : List Char} (hs : c ∉ s) :
      c ∉ replaceAll (starred? base gap exponent) s := by
    refine mt ((congruence_mem c).replaceAll (fun s out rest h => ?_) s) hs
    obtain ⟨b, left, right, start, rfl, -, -, -, rfl⟩ := starred?_eq_some h
    refine ⟨b :: (left ++ '*' :: '*' :: (right ++ start)), List.cons_ne_nil _ _, by simp, fun hmem => ?_⟩
    have hcaret : c ∉ ['^'] := not_mem_of_spelled hc rfl
    simp only [List.mem_cons, List.mem_append, List.not_mem_nil, or_false] at hmem hcaret ⊢
    tauto
  exact hstarred _ _ _ (hstarred _ _ _ hs)

theorem not_mem_pass (s : List Char) : c ∉ pass s := by
  have hspace : c ≠ ' ' := by
    rintro rfl
    exact hc rfl
  have hmark : c ≠ 'E' := by
    rintro rfl
    exact hc rfl
  have hroots := (tidyRoots_thinned _).not_mem hspace
    (not_mem_spellBars hc (not_mem_replaceSymbols hc (spellCommands (stripDelimiters s))))
  have hpowers := not_mem_replaceStars hc (not_mem_replaceSuperscripts hc (not_mem_wrapRadicands hc hroots))
  exact (tidyBlanks_thinned _).not_mem hspace (not_mem_tidyScientific hmark hpowers)

end Symbols

/-! ## Superscripts -/

theorem SameEnds.keepsApart {first second : Char → Bool} (h : SameEnds t s) (hne : t ≠ [])
    (hchain : s.IsChain (Apart first second) → t.IsChain (Apart first second)) :
    KeepsApart first second t s where
  ne_nil := hne
  start hs d hd := hs d (h.1 ▸ hd)
  last d hd hfirst := ⟨d, h.2 ▸ hd, hfirst⟩
  chain := hchain

theorem keepsApart_starred (base gap exponent : Char → Bool) :
    Rewrites (KeepsApart carriesSuperscript isSuperscript) (starred? base gap exponent) := by
  intro s out rest h
  obtain ⟨b, left, right, start, rfl, -, -, hne, rfl⟩ := starred?_eq_some h
  have hsplit : b :: (left ++ '*' :: '*' :: (right ++ start)) = (b :: left ++ ['*', '*'] ++ right) ++ start := by
    simp
  have hends : SameEnds (b :: '^' :: start) (b :: (left ++ '*' :: '*' :: (right ++ start))) := by
    refine ⟨rfl, ?_⟩
    rw [hsplit, List.getLast?_append_of_ne_nil _ hne, ← List.getLast?_append_of_ne_nil [b, '^'] hne]
    rfl
  refine ⟨_, List.cons_ne_nil _ _, by simp, hends.keepsApart (List.cons_ne_nil _ _) fun hchain => ?_⟩
  have hstart : start.IsChain (Apart carriesSuperscript isSuperscript) := by
    rw [hsplit] at hchain
    exact hchain.right_of_append
  refine isChain_cons_iff.mpr ⟨fun _ => stops_cons.mpr rfl, isChain_cons_iff.mpr ⟨fun hcaret => ?_, hstart⟩⟩
  cases hcaret

theorem keepsApart_scientific : Rewrites (KeepsApart carriesSuperscript isSuperscript) scientific? := by
  intro s out rest h
  obtain ⟨used, hne, hs, hends⟩ := rewrites_scientific_sameEnds s out rest h
  obtain ⟨sign, mantissa, mark, powerSign, power, -, -, hmantissa, hsigns, hout⟩ := scientific?_eq_some h
  refine ⟨used, hne, hs, hends.keepsApart (by simp [hout]) fun _ => isChain_of_no_superscripts ?_⟩
  have hplain {d : Char} (hd : d.isDigit = true ∨ d = '+' ∨ d = '-') : isSuperscript d = false := by
    obtain hd | rfl | rfl := hd
    · exact isSuperscript_of_isDigit hd
    · rfl
    · rfl
  intro d hd
  subst hout
  simp only [List.mem_append, List.mem_singleton] at hd hsigns
  obtain (((hd | hd) | rfl) | hd) | hd := hd
  · exact hplain (hsigns d (Or.inl (Or.inl hd)))
  · obtain hd | rfl := hmantissa d (mem_of_mem_shortMantissa hd)
    · exact isSuperscript_of_isDigit hd
    · rfl
  · rfl
  · split at hd
    · cases hd
    · exact hplain (hsigns d (Or.inl (Or.inr hd)))
  · exact hplain (hsigns d (Or.inr hd))

theorem keepsApart_blankRun : Rewrites (KeepsApart carriesSuperscript isSuperscript) blankRun? := by
  intro s out rest h
  obtain ⟨run, rfl, rfl, hne, -, -⟩ := blankRun?_eq_some h
  exact ⟨run, hne, rfl,
    keepsApart_of_neither (List.cons_ne_nil _ _) (List.forall_mem_singleton.mpr ⟨rfl, rfl⟩)⟩

theorem keepsApart_spaceAtEnd : Rewrites (KeepsApart carriesSuperscript isSuperscript) spaceAtEnd? := by
  intro s out rest h
  obtain ⟨rfl, rfl⟩ := spaceAtEnd?_eq_some h
  exact ⟨[' ', '\n'], List.cons_ne_nil _ _, rfl,
    keepsApart_of_neither (List.cons_ne_nil _ _) (List.forall_mem_singleton.mpr ⟨rfl, rfl⟩)⟩

theorem replaceStars_isChain (h : s.IsChain CarriesNothing) : (replaceStars s).IsChain CarriesNothing := by
  have htight : Rewrites (KeepsApart carriesSuperscript isSuperscript) tightPower? :=
    keepsApart_starred _ _ _
  have hspaced : Rewrites (KeepsApart carriesSuperscript isSuperscript) spacedPower? :=
    keepsApart_starred _ _ _
  exact isChain_replaceAll_of_isChain hspaced (isChain_replaceAll_of_isChain htight h)

theorem tidyBlanks_isChain (h : s.IsChain CarriesNothing) : (tidyBlanks s).IsChain CarriesNothing := by
  have hruns := isChain_replaceAll_of_isChain keepsApart_blankRun h
  exact isChain_trim (isChain_replaceAll_of_isChain keepsApart_spaceAtEnd hruns)

theorem pass_isChain (s : List Char) : (pass s).IsChain CarriesNothing := by
  have hstars := replaceStars_isChain (replaceSuperscripts_isChain
    (wrapRadicands (tidyRoots (spellBars (replaceSymbols (spellCommands (stripDelimiters s)))))))
  exact tidyBlanks_isChain (isChain_replaceAll_of_isChain keepsApart_scientific hstars)

/-! ## All passes -/

/-- The blanks, symbols and superscripts of a text that was spelled in ASCII, whether it would change
again or not. -/
theorem asciiText_shape (s : List Char) :
    EvenlySpaced (asciiText s) ∧ (∀ c ∈ asciiText s, symbolSpelling? c = none) ∧
      (asciiText s).IsChain CarriesNothing := by
  -- The last of the passes gives the text its shape.
  have hlast : asciiText s = pass (pass^[maxPasses - 1] s) := by
    rw [asciiText_eq_iterate, ← Function.iterate_succ_apply' pass]
    rfl
  rw [hlast]
  refine ⟨evenlySpaced_tidyBlanks _, fun c hmem => ?_, pass_isChain _⟩
  by_contra hc
  exact not_mem_pass hc _ hmem

end AnswerCheck.Spelling
