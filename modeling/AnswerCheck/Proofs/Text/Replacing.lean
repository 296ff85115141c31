import AnswerCheck.Text.Recognizer
import Mathlib.Data.List.Basic
import Mathlib.Data.List.TakeWhile

/-! # What reading and replacing do to a text

A reader splits a text into the piece that it took and the rest. `Rewrites R rule` says that a rule
always writes something related by `R` for the piece that it took; if `R` is a congruence, then a
text is related to itself with all matches replaced, and with all rounds of replacement made.
-/

set_option autoImplicit false

namespace AnswerCheck.Text

/-! ## Runs and words -/

theorem eq_takeWhile_append {p : Char → Bool} {s rest : List Char} (h : s.dropWhile p = rest) :
    s = s.takeWhile p ++ rest := by
  rw [← h, List.takeWhile_append_dropWhile]

/-- A text without the character is a run of other characters. -/
theorem bne_of_not_mem {c : Char} {s : List Char} (h : c ∉ s) : ∀ d ∈ s, (d != c) = true := by
  intro d hd
  rw [bne_iff_ne]
  rintro rfl
  exact h hd

/-- A run of `p` cannot go on into the text. -/
def Stops (p : Char → Bool) (s : List Char) : Prop :=
  ∀ c, s.head? = some c → p c = false

theorem stops_nil (p : Char → Bool) : Stops p [] := by
  intro c h
  cases h

theorem stops_cons {p : Char → Bool} {c : Char} {s : List Char} : Stops p (c :: s) ↔ p c = false := by
  constructor
  · intro h
    exact h c rfl
  · intro h d hd
    rwa [← Option.some.inj hd]

theorem stops_dropWhile (p : Char → Bool) (s : List Char) : Stops p (s.dropWhile p) := by
  induction s with
  | nil => exact stops_nil p
  | cons c s ih =>
    rw [List.dropWhile_cons]
    split
    · exact ih
    · next hc => exact stops_cons.mpr (Bool.eq_false_iff.mpr hc)

theorem stops_append {p : Char → Bool} {s t : List Char} (hs : Stops p s) (ht : Stops p t) :
    Stops p (s ++ t) := by
  cases s with
  | nil => exact ht
  | cons c s => exact stops_cons.mpr (stops_cons.mp hs)

theorem stops_of_blanks {p : Char → Bool} {gap : List Char} (hgap : ∀ c ∈ gap, isBlank c = true)
    (hblank : ∀ c, isBlank c = true → p c = false) : Stops p gap :=
  fun c hc => hblank c (hgap c (List.mem_of_mem_head? hc))

theorem Stops.append {p : Char → Bool} {s : List Char} (h : Stops p s) (hne : s ≠ []) (t : List Char) :
    Stops p (s ++ t) := by
  intro c hc
  rw [List.head?_append_of_ne_nil _ hne] at hc
  exact h c hc

theorem Stops.mono {p q : Char → Bool} {s : List Char} (h : Stops p s)
    (hpq : ∀ c, q c = true → p c = true) : Stops q s := by
  intro c hc
  rw [Bool.eq_false_iff]
  intro hq
  exact Bool.eq_false_iff.mp (h c hc) (hpq c hq)

theorem takeWhile_of_stops {p : Char → Bool} {s : List Char} (h : Stops p s) : s.takeWhile p = [] := by
  cases s with
  | nil => rfl
  | cons c s => simp [stops_cons.mp h]

theorem dropWhile_of_stops {p : Char → Bool} {s : List Char} (h : Stops p s) : s.dropWhile p = s := by
  cases s with
  | nil => rfl
  | cons c s => simp [stops_cons.mp h]

theorem takeWhile_append {p : Char → Bool} {run rest : List Char} (hrun : ∀ c ∈ run, p c = true)
    (hrest : Stops p rest) : (run ++ rest).takeWhile p = run := by
  rw [List.takeWhile_append_of_pos hrun, takeWhile_of_stops hrest, List.append_nil]

theorem dropWhile_append {p : Char → Bool} {run rest : List Char} (hrun : ∀ c ∈ run, p c = true)
    (hrest : Stops p rest) : (run ++ rest).dropWhile p = rest := by
  rw [List.dropWhile_append_of_pos hrun, dropWhile_of_stops hrest]

theorem run?_eq_some {p : Char → Bool} {s run rest : List Char} (h : run? p s = some (run, rest)) :
    s = run ++ rest ∧ run ≠ [] ∧ (∀ c ∈ run, p c = true) ∧ Stops p rest := by
  cases s with
  | nil => cases h
  | cons c s =>
    rw [run?] at h
    split at h
    · next hc =>
      obtain ⟨rfl, rfl⟩ := Prod.mk.inj (Option.some.inj h)
      refine ⟨by simp, by simp, ?_, stops_dropWhile p s⟩
      intro d hd
      obtain rfl | hd := List.mem_cons.mp hd
      · exact hc
      · exact List.mem_takeWhile_imp hd
    · cases h

theorem run?_append {p : Char → Bool} {run rest : List Char} (hne : run ≠ [])
    (hrun : ∀ c ∈ run, p c = true) (hrest : Stops p rest) : run? p (run ++ rest) = some (run, rest) := by
  cases run with
  | nil => exact absurd rfl hne
  | cons c run =>
    have htail : ∀ d ∈ run, p d = true := fun d hd => hrun d (List.mem_cons_of_mem c hd)
    rw [List.cons_append, run?, if_pos (hrun c List.mem_cons_self), takeWhile_append htail hrest,
      dropWhile_append htail hrest]

theorem after?_eq_some {word s rest : List Char} : after? word s = some rest ↔ s = word ++ rest := by
  rw [after?, List.isPrefixOf?_eq_some_iff_append_eq, eq_comm]

theorem exists_eq_append_dropEndWhile (p : Char → Bool) (s : List Char) :
    ∃ dropped, s = dropEndWhile p s ++ dropped ∧ ∀ c ∈ dropped, p c = true := by
  refine ⟨(s.reverse.takeWhile p).reverse, ?_, fun c hc => List.mem_takeWhile_imp (List.mem_reverse.mp hc)⟩
  rw [dropEndWhile, ← List.reverse_append, List.takeWhile_append_dropWhile, List.reverse_reverse]

theorem dropEndWhile_append {p : Char → Bool} {s t : List Char} (hs : Stops p s.reverse)
    (ht : ∀ c ∈ t, p c = true) : dropEndWhile p (s ++ t) = s := by
  rw [dropEndWhile, List.reverse_append, dropWhile_append (fun c hc => ht c (List.mem_reverse.mp hc)) hs,
    List.reverse_reverse]

/-- A text is what was dropped before it was trimmed, the trimmed text, and what was dropped after
it. -/
theorem exists_eq_append_trim (s : List Char) :
    ∃ left right, s = left ++ trim s ++ right ∧ (∀ c ∈ left, isBlank c = true) ∧
      ∀ c ∈ right, isBlank c = true := by
  obtain ⟨right, hs, hright⟩ := exists_eq_append_dropEndWhile isBlank (s.dropWhile isBlank)
  refine ⟨s.takeWhile isBlank, right, ?_, fun c => List.mem_takeWhile_imp, hright⟩
  rw [List.append_assoc, trim, trimWhile, ← hs, List.takeWhile_append_dropWhile]

/-- A trimmed text does not start with a blank. -/
theorem stops_trim (s : List Char) : Stops isBlank (trim s) := by
  obtain ⟨dropped, hs, -⟩ := exists_eq_append_dropEndWhile isBlank (s.dropWhile isBlank)
  have hstop := stops_dropWhile isBlank s
  rw [hs] at hstop
  intro c hc
  refine hstop c ?_
  rw [List.head?_append, ← trimWhile, ← trim, hc]
  rfl

theorem trim_eq_self {s : List Char} (h : Stops isBlank s) (hend : Stops isBlank s.reverse) : trim s = s := by
  rw [trim, trimWhile, dropWhile_of_stops h]
  have hdrop := dropEndWhile_append (t := []) hend (by simp)
  rwa [List.append_nil] at hdrop

theorem stops_trim_reverse (s : List Char) : Stops isBlank (trim s).reverse := by
  rw [trim, trimWhile, dropEndWhile, List.reverse_reverse]
  exact stops_dropWhile _ _

/-- Trimming does not see the blanks around a text. -/
theorem trim_blanks_around {left right : List Char} (hleft : ∀ c ∈ left, isBlank c = true)
    (hright : ∀ c ∈ right, isBlank c = true) (s : List Char) : trim (left ++ s ++ right) = trim s := by
  have hright' : ∀ c ∈ right.reverse, isBlank c = true := fun c hc => hright c (List.mem_reverse.mp hc)
  rw [trim, trim, trimWhile, trimWhile, List.append_assoc, List.dropWhile_append_of_pos hleft,
    List.dropWhile_append]
  split
  · next hblank =>
    rw [List.isEmpty_iff.mp hblank, List.dropWhile_eq_nil_iff.mpr hright]
  · rw [dropEndWhile, List.reverse_append, List.dropWhile_append_of_pos hright', dropEndWhile]

/-! ## One replacement after another -/

theorem replaceFrom_eq_drop (rule : Recognizer (List Char)) (skip : Nat) (s : List Char) :
    replaceFrom rule skip s = replaceAll rule (s.drop skip) := by
  induction s generalizing skip with
  | nil => cases skip <;> simp [replaceAll, replaceFrom]
  | cons c s ih =>
    cases skip with
    | zero => rfl
    | succ skip => rw [replaceFrom, ih, List.drop_succ_cons]

theorem replaceAll_cons_none {rule : Recognizer (List Char)} {c : Char} {s : List Char}
    (h : rule (c :: s) = none) : replaceAll rule (c :: s) = c :: replaceAll rule s := by
  rw [replaceAll, replaceFrom, h]
  rfl

theorem replaceAll_append_some {rule : Recognizer (List Char)} {used out rest : List Char}
    (hused : used ≠ []) (h : rule (used ++ rest) = some (out, rest)) :
    replaceAll rule (used ++ rest) = out ++ replaceAll rule rest := by
  cases used with
  | nil => exact absurd rfl hused
  | cons c used =>
    rw [List.cons_append] at h ⊢
    rw [replaceAll, replaceFrom, h]
    simp only [replaceFrom_eq_drop, List.length_append, Nat.add_sub_cancel, List.drop_left]

/-- Induction on a text and what is written for it: a rule passes over the first character, or it takes a
piece and writes another. `P` is what is known of the two and of the text after them. -/
theorem replaceAll_induction {rule : Recognizer (List Char)} {s : List Char}
    {P : List Char → List Char → List Char → Prop} {motive : List Char → List Char → Prop}
    (hrule : ∀ t out rest, t <:+ s → rule t = some (out, rest) →
      ∃ used, used ≠ [] ∧ t = used ++ rest ∧ P out used rest)
    (nil : motive [] [])
    (pass : ∀ c t, c :: t <:+ s → rule (c :: t) = none → motive t (replaceAll rule t) →
      motive (c :: t) (c :: replaceAll rule t))
    (write : ∀ used out rest, used ≠ [] → used ++ rest <:+ s → rule (used ++ rest) = some (out, rest) →
      P out used rest → motive rest (replaceAll rule rest) →
        motive (used ++ rest) (out ++ replaceAll rule rest)) : motive s (replaceAll rule s) := by
  suffices h : ∀ t, t <:+ s → motive t (replaceAll rule t) from h s (List.suffix_refl s)
  intro t ht
  -- A match can take any number of characters, so the induction is on the length.
  induction hn : t.length using Nat.strongRecOn generalizing t with
  | ind n ih =>
    cases t with
    | nil => exact nil
    | cons c t =>
      cases hmatch : rule (c :: t) with
      | none =>
        have hrest := ih t.length (by simp [← hn]) t ((List.suffix_cons c t).trans ht) rfl
        rw [replaceAll_cons_none hmatch]
        exact pass c t ht hmatch hrest
      | some found =>
        obtain ⟨out, rest⟩ := found
        obtain ⟨used, hused, heq, hout⟩ := hrule _ _ _ ht hmatch
        have hshort : rest.length < n := by
          have := List.length_pos_iff.mpr hused
          rw [← hn, heq, List.length_append]
          omega
        rw [heq] at ht hmatch ⊢
        have hrest := ih rest.length hshort rest ((List.suffix_append used rest).trans ht) rfl
        rw [replaceAll_append_some hused hmatch]
        exact write used out rest hused ht hmatch hout hrest

/-! ## Relations that replacing respects -/

/-- A relation of texts that can be used piece by piece. -/
structure Congruence (R : List Char → List Char → Prop) : Prop where
  refl (s : List Char) : R s s
  trans {s t u : List Char} : R s t → R t u → R s u
  append {s s' t t' : List Char} : R s s' → R t t' → R (s ++ t) (s' ++ t')

theorem congruence_mem (c : Char) : Congruence fun t s : List Char => c ∈ t → c ∈ s where
  refl _ := id
  trans h h' := h' ∘ h
  append h h' hmem := List.mem_append.mpr ((List.mem_append.mp hmem).imp h h')

/-- What the rule writes is related to the piece of text that it took. -/
def Rewrites (R : List Char → List Char → Prop) (rule : Recognizer (List Char)) : Prop :=
  ∀ s out rest, rule s = some (out, rest) → ∃ used, used ≠ [] ∧ s = used ++ rest ∧ R out used

variable {R : List Char → List Char → Prop}

theorem Congruence.replaceAll (hR : Congruence R) {rule : Recognizer (List Char)}
    (hrule : Rewrites R rule) (s : List Char) : R (replaceAll rule s) s := by
  refine replaceAll_induction (P := fun out used _ => R out used) (motive := fun t written => R written t)
    (fun t out rest _ hmatch => hrule t out rest hmatch) (hR.refl []) ?pass ?write
  case pass =>
    intro c t _ _ ih
    exact hR.append (hR.refl [c]) ih
  case write =>
    intro used out rest _ _ _ hout ih
    exact hR.append hout ih

theorem Congruence.settleWithin (hR : Congruence R) {step : List Char → List Char}
    (hstep : ∀ s, R (step s) s) (rounds : Nat) (s : List Char) : R (settleWithin step rounds s) s := by
  induction rounds generalizing s with
  | zero => exact hR.refl s
  | succ rounds ih =>
    rw [Text.settleWithin]
    split
    · exact hR.refl s
    · exact hR.trans (ih (step s)) (hstep s)

theorem Congruence.settle (hR : Congruence R) {step : List Char → List Char}
    (hstep : ∀ s, R (step s) s) (size : List Char → Nat) (s : List Char) : R (settle size step s) s :=
  hR.settleWithin hstep (size s) s

end AnswerCheck.Text
