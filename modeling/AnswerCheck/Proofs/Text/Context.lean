import AnswerCheck.Proofs.Text.Replacing

/-! # Reading and replacing in a piece of a longer text

What a rule makes of a piece depends in general on the text after it. There are two ways in which it
does not: the piece is rewritten the same whatever follows, or the rule reads no further than the
piece before the text that does follow.
-/

set_option autoImplicit false

namespace AnswerCheck.Text

variable {rule : Recognizer (List Char)} {s s' t t' rest : List Char}

/-! ## Whatever follows -/

/-- The rule makes the one piece of text out of the other, whatever follows. -/
def RewritesTo (rule : Recognizer (List Char)) (s t : List Char) : Prop :=
  ∀ rest, replaceAll rule (s ++ rest) = t ++ replaceAll rule rest

namespace RewritesTo

theorem replaceAll_eq (h : RewritesTo rule s t) : replaceAll rule s = t := by
  have hself := h []
  rwa [List.append_nil, replaceAll, replaceAll, replaceFrom, List.append_nil] at hself

theorem append (h : RewritesTo rule s t) (h' : RewritesTo rule s' t') :
    RewritesTo rule (s ++ s') (t ++ t') := by
  intro rest
  rw [List.append_assoc, h, h', List.append_assoc]

theorem of_some {out : List Char} (hs : s ≠ []) (h : ∀ rest, rule (s ++ rest) = some (out, rest)) :
    RewritesTo rule s out :=
  fun rest => replaceAll_append_some hs (h rest)

theorem cons_of_none {c : Char} (h : ∀ rest, rule (c :: s ++ rest) = none) (hs : RewritesTo rule s t) :
    RewritesTo rule (c :: s) (c :: t) := by
  intro rest
  have hnone : rule (c :: (s ++ rest)) = none := h rest
  rw [List.cons_append, replaceAll_cons_none hnone, hs]
  rfl

end RewritesTo

/-! ## Before a given text -/

/-- At every place of the piece the rule reads what it reads in the piece alone. -/
def ReadsWithin (rule : Recognizer (List Char)) (s rest : List Char) : Prop :=
  ∀ t, t ≠ [] → t <:+ s → rule (t ++ rest) = (rule t).map fun m => (m.1, m.2 ++ rest)

/-- If the rule reads within the piece, the piece and the text after it are rewritten apart. -/
theorem ReadsWithin.replaceAll_append {R : List Char → List Char → Prop} (hrule : Rewrites R rule)
    (h : ReadsWithin rule s rest) :
    replaceAll rule (s ++ rest) = replaceAll rule s ++ replaceAll rule rest := by
  refine replaceAll_induction (P := fun out used _ => R out used)
    (motive := fun t written => replaceAll rule (t ++ rest) = written ++ replaceAll rule rest)
    (fun t out rest _ hmatch => hrule t out rest hmatch) rfl ?pass ?write
  case pass =>
    intro c t ht hmatch ih
    have hread := h (c :: t) (List.cons_ne_nil c t) ht
    have hnone : rule (c :: (t ++ rest)) = none := by
      rw [← List.cons_append, hread, hmatch]
      rfl
    rw [List.cons_append, replaceAll_cons_none hnone, ih, List.cons_append]
  case write =>
    intro used out more hused ht hmatch _ ih
    have hread := h (used ++ more) (List.append_ne_nil_of_left_ne_nil hused more) ht
    rw [hmatch, List.append_assoc] at hread
    rw [List.append_assoc, replaceAll_append_some hused hread, ih, List.append_assoc]

/-- If the rule reads within the piece and nothing is found after it, then what is found in the piece is
found. -/
theorem ReadsWithin.findFirst?_append (h : ReadsWithin rule s rest) (hrest : findFirst? rule rest = none) :
    findFirst? rule (s ++ rest) = (findFirst? rule s).map fun m => (m.1, m.2.1, m.2.2 ++ rest) := by
  induction s with
  | nil => exact hrest
  | cons c s ih =>
    have hread : rule (c :: (s ++ rest)) = _ := h (c :: s) (List.cons_ne_nil c s) (List.suffix_refl _)
    have hself := ih fun t hne ht => h t hne (ht.trans (List.suffix_cons c s))
    rw [List.cons_append, findFirst?, findFirst?, hread, hself]
    cases rule (c :: s) with
    | some found => rfl
    | none => simp only [Option.map_none, Option.map_map, Function.comp_def]

theorem takeWhile_append_stops {p : Char → Bool} (h : Stops p rest) (t : List Char) :
    (t ++ rest).takeWhile p = t.takeWhile p := by
  induction t with
  | nil => rw [List.nil_append, takeWhile_of_stops h, List.takeWhile_nil]
  | cons c t ih =>
    rw [List.cons_append, List.takeWhile_cons, List.takeWhile_cons, ih]

theorem dropWhile_append_stops {p : Char → Bool} (h : Stops p rest) (t : List Char) :
    (t ++ rest).dropWhile p = t.dropWhile p ++ rest := by
  induction t with
  | nil => rw [List.nil_append, dropWhile_of_stops h, List.dropWhile_nil, List.nil_append]
  | cons c t ih =>
    rw [List.cons_append, List.dropWhile_cons, List.dropWhile_cons, ih]
    split <;> rfl

/-- What a text ends with stops a run from its end. -/
theorem stops_reverse_append {p : Char → Bool} (hne : t ≠ []) (ht : ∀ c ∈ t, p c = false)
    (s : List Char) : Stops p (s ++ t).reverse := by
  rw [List.reverse_append]
  refine Stops.append (fun c hc => ?_) (by simpa using hne) _
  exact ht c (List.mem_reverse.mp (List.mem_of_mem_head? hc))

/-- A run ends within a piece if the text after it cannot continue it. -/
theorem run?_append_stops {p : Char → Bool} (h : Stops p rest) (ht : t ≠ []) :
    run? p (t ++ rest) = (run? p t).map fun m => (m.1, m.2 ++ rest) := by
  cases t with
  | nil => exact absurd rfl ht
  | cons c t =>
    rw [List.cons_append, run?, run?, takeWhile_append_stops h, dropWhile_append_stops h]
    split <;> rfl

/-- A word is read within a piece if the text after it cannot continue the word. -/
theorem after?_append (hne : t ≠ []) {word : List Char} (hrest : Stops word.tail.contains rest) :
    after? word (t ++ rest) = (after? word t).map (· ++ rest) := by
  cases hfound : after? word t with
  | some u =>
    rw [after?_eq_some.mp hfound, List.append_assoc]
    exact after?_eq_some.mpr rfl
  | none =>
    rw [Option.map_none, Option.eq_none_iff_forall_ne_some]
    intro v hv
    obtain ⟨u, hword, hu⟩ | ⟨u, hword, -⟩ := List.append_eq_append_iff.mp (after?_eq_some.mp hv)
    · -- The word goes on after the piece.
      cases u with
      | nil =>
        rw [List.append_nil] at hword
        have hself : after? word t = some [] := after?_eq_some.mpr (by rw [hword, List.append_nil])
        rw [hself] at hfound
        cases hfound
      | cons c u =>
        have hc : c ∈ word.tail := by
          rw [hword, List.tail_append_of_ne_nil hne]
          simp
        rw [hu] at hrest
        have hstop := stops_cons.mp hrest
        simp [hc] at hstop
    · have hself := after?_eq_some.mpr hword
      rw [hself] at hfound
      cases hfound

end AnswerCheck.Text
