import AnswerCheck.Proofs.Text.Replacing
import Mathlib.Data.List.Chain

/-! # Neighbours in a text

Which characters stand directly after which ones, in a text after a rule was applied everywhere. A
rule can keep two kinds of characters apart, or part them itself: then what it writes has to end
where no character of the second kind follows, and where it does not match there has to be none.
-/

set_option autoImplicit false

namespace AnswerCheck.Text

variable {first second before : Char → Bool} {rule : Recognizer (List Char)} {s t out rest : List Char}

/-- No character of the second kind stands after one of the first. -/
def Apart (first second : Char → Bool) (c d : Char) : Prop :=
  first c = true → second d = false

theorem isChain_cons_iff {c : Char} : (c :: s).IsChain (Apart first second) ↔
    (first c = true → Stops second s) ∧ s.IsChain (Apart first second) := by
  rw [List.isChain_cons]
  exact and_congr_left' ⟨fun h hc d hd => h d hd hc, fun h d hd hc => h hc d hd⟩

theorem isChain_append_iff : (s ++ t).IsChain (Apart first second) ↔
    s.IsChain (Apart first second) ∧ t.IsChain (Apart first second) ∧
      ∀ c ∈ s.getLast?, first c = true → Stops second t := by
  rw [List.isChain_append]
  exact and_congr_right' (and_congr_right' ⟨fun h c hc hfirst d hd => h c hc d hd hfirst,
    fun h c hc d hd hfirst => h c hc hfirst d hd⟩)

/-! ## Parting -/

/-- What a rule writes for a piece of text, if it parts the two kinds: the kinds are apart in it, and
they stay apart from what stands before and after it. A character of the kind `before` at the start
of a text is one for which a character of the second kind may be written. -/
structure Parts (first second before : Char → Bool) (out used rest : List Char) : Prop where
  ne_nil : out ≠ []
  start : Stops before used → Stops second out
  chain : out.IsChain (Apart first second)
  last : ∀ c ∈ out.getLast?, first c = true → Stops before rest

/-- A rule that parts two kinds of characters where it matches, and does match where they would not
be apart, leaves them apart everywhere. -/
theorem isChain_replaceAll (hsecond : ∀ c, second c = true → before c = true)
    (hrule : ∀ t out rest, t <:+ s → rule t = some (out, rest) →
      ∃ used, used ≠ [] ∧ t = used ++ rest ∧ Parts first second before out used rest)
    (hnone : ∀ c t, c :: t <:+ s → rule (c :: t) = none → first c = true → Stops before t) :
    (Stops before s → Stops second (replaceAll rule s)) ∧
      (replaceAll rule s).IsChain (Apart first second) := by
  refine replaceAll_induction (P := Parts first second before)
    (motive := fun t written =>
      (Stops before t → Stops second written) ∧ written.IsChain (Apart first second))
    hrule ⟨fun _ => stops_nil second, List.isChain_nil⟩ ?pass ?write
  case pass =>
    rintro c t ht hmatch ⟨hstart, hchain⟩
    refine ⟨fun h => ?_, isChain_cons_iff.mpr ⟨fun hc => hstart (hnone c t ht hmatch hc), hchain⟩⟩
    have hself : Stops before [c] := stops_cons.mpr (stops_cons.mp h)
    exact stops_cons.mpr (stops_cons.mp (hself.mono hsecond))
  case write =>
    rintro used out rest hused - - hparts ⟨hstart, hchain⟩
    rw [isChain_append_iff]
    refine ⟨fun h => ?_, hparts.chain, hchain, fun c hc hfirst => hstart (hparts.last c hc hfirst)⟩
    refine (hparts.start fun d hd => h d ?_).append hparts.ne_nil _
    rw [List.head?_append_of_ne_nil _ hused, hd]

/-! ## Keeping apart -/

/-- What is written for a piece of text keeps two kinds apart, and starts and ends like the piece as
far as they go. -/
structure KeepsApart (first second : Char → Bool) (out used : List Char) : Prop where
  ne_nil : out ≠ []
  start : Stops second used → Stops second out
  last : ∀ c ∈ out.getLast?, first c = true → ∃ d ∈ used.getLast?, first d = true
  chain : used.IsChain (Apart first second) → out.IsChain (Apart first second)

theorem keepsApart_of_neither (hne : out ≠ []) (h : ∀ c ∈ out, first c = false ∧ second c = false) :
    KeepsApart first second out t where
  ne_nil := hne
  start _ c hc := (h c (List.mem_of_mem_head? hc)).2
  last c hc hfirst := by
    rw [(h c (List.mem_of_getLast? hc)).1] at hfirst
    cases hfirst
  chain _ := List.Pairwise.isChain (List.pairwise_of_forall_mem_list fun _ _ d hd _ => (h d hd).2)

theorem isChain_replaceAll_of_isChain (hrule : Rewrites (KeepsApart first second) rule)
    (h : s.IsChain (Apart first second)) : (replaceAll rule s).IsChain (Apart first second) := by
  refine (isChain_replaceAll (fun _ => id) (fun t out rest ht hmatch => ?_) fun c t ht _ => ?_).2
  · obtain ⟨used, hused, rfl, hkeeps⟩ := hrule t out rest hmatch
    obtain ⟨hchain, -, hnext⟩ := isChain_append_iff.mp (h.suffix ht)
    refine ⟨used, hused, rfl, hkeeps.ne_nil, hkeeps.start, hkeeps.chain hchain, fun c hc hfirst => ?_⟩
    obtain ⟨d, hd, hfirst⟩ := hkeeps.last c hc hfirst
    exact hnext d hd hfirst
  · exact (isChain_cons_iff.mp (h.suffix ht)).1

end AnswerCheck.Text
