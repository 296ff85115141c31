import AnswerCheck.Proofs.Spelling.Progress

/-! # Matched parentheses

The parentheses of a text are matched if none is closed that is not open and none stays open. What
stands between a parenthesis and the one that closes it is matched, and a parenthesis in front of a
matched text is closed by the one after it.
-/

set_option autoImplicit false

namespace AnswerCheck.Spelling

open Text

variable {s t inside arguments rest : List Char} {n m : Nat}

/-! ## Depth -/

/-- The number of parentheses that are open after a text, unless it closes one that is not open. -/
def openAfter? (opened : Nat) : List Char → Option Nat
  | [] => some opened
  | c :: s =>
    if c = ')' then
      match opened with
      | 0 => none
      | opened + 1 => openAfter? opened s
    else openAfter? (if c = '(' then opened + 1 else opened) s

/-- Every parenthesis is closed, and only open ones are. -/
def Matched (s : List Char) : Prop :=
  openAfter? 0 s = some 0

theorem openAfter?_cons {c : Char} (hc : c ≠ ')') (n : Nat) (s : List Char) :
    openAfter? n (c :: s) = openAfter? (if c = '(' then n + 1 else n) s := by
  rw [openAfter?.eq_def]
  exact if_neg hc

theorem openAfter?_append (n : Nat) (s t : List Char) :
    openAfter? n (s ++ t) = (openAfter? n s).bind fun m => openAfter? m t := by
  fun_induction openAfter? n s with
  | case1 => rfl
  | case2 => rfl
  | case3 s opened ih => exact ih
  | case4 opened c s hc ih => rw [List.cons_append, openAfter?_cons hc, ih]

/-- Parentheses that are open before the text stay open. -/
theorem openAfter?_add (h : openAfter? n s = some m) (k : Nat) : openAfter? (n + k) s = some (m + k) := by
  fun_induction openAfter? n s with
  | case1 opened =>
    obtain rfl := Option.some.inj h
    rfl
  | case2 => cases h
  | case3 s opened ih =>
    rw [show opened + 1 + k = opened + k + 1 by omega]
    exact ih h
  | case4 opened c s hc ih =>
    have hself := ih h
    rw [openAfter?_cons hc]
    split
    · rw [if_pos ‹_›] at hself
      rwa [show opened + k + 1 = opened + 1 + k by omega]
    · rwa [if_neg ‹_›] at hself

theorem Matched.openAfter? (h : Matched s) (n : Nat) : openAfter? n s = some n := by
  have hadd := openAfter?_add h n
  rwa [Nat.zero_add] at hadd

theorem Matched.append (hs : Matched s) (ht : Matched t) : Matched (s ++ t) := by
  rw [Matched, openAfter?_append, hs, Option.bind_some, ht]

theorem matched_of_not_mem (hopening : '(' ∉ s) (hclosing : ')' ∉ s) : Matched s := by
  induction s with
  | nil => rfl
  | cons c s ih =>
    obtain ⟨hc, hs⟩ := not_or.mp (List.mem_cons.not.mp hopening)
    obtain ⟨hc', hs'⟩ := not_or.mp (List.mem_cons.not.mp hclosing)
    rw [Matched, openAfter?_cons (Ne.symm hc'), if_neg (Ne.symm hc)]
    exact ih hs hs'

theorem Matched.group (h : Matched s) : Matched ('(' :: s ++ [')']) := by
  have hinside := h.openAfter? 1
  rw [List.cons_append, Matched, openAfter?_cons (by decide), if_pos rfl, openAfter?_append, hinside]
  rfl

/-! ## The parenthesis that closes -/

theorem closing?_cons {c : Char} (hc : c ≠ ')') (n : Nat) (s : List Char) :
    closing? n (c :: s) = (closing? (if c = '(' then n + 1 else n) s).map
      fun (inside, rest) => (c :: inside, rest) := by
  rw [closing?.eq_def]
  exact if_neg hc

/-- A text that closes only parentheses of its own is passed over. -/
theorem closing?_append (h : openAfter? n s = some m) (t : List Char) :
    closing? n (s ++ t) = (closing? m t).map fun (inside, rest) => (s ++ inside, rest) := by
  fun_induction openAfter? n s with
  | case1 opened =>
    obtain rfl := Option.some.inj h
    simp
  | case2 => cases h
  | case3 s opened ih =>
    have hself : closing? (opened + 1) (')' :: (s ++ t)) =
      (closing? opened (s ++ t)).map fun (inside, rest) => (')' :: inside, rest) := rfl
    rw [List.cons_append, hself, ih h, Option.map_map]
    rfl
  | case4 opened c s hc ih =>
    rw [List.cons_append, closing?_cons hc, ih h, Option.map_map]
    rfl

theorem openAfter?_of_closing? (h : closing? n s = some (inside, rest)) :
    ∃ front, inside = front ++ [')'] ∧ openAfter? n front = some 0 := by
  induction s generalizing n inside with
  | nil => cases h
  | cons c s ih =>
    unfold closing? at h
    split at h
    · next hc =>
      subst hc
      split at h
      · obtain ⟨rfl, rfl⟩ := Prod.mk.inj (Option.some.inj h)
        exact ⟨[], rfl, rfl⟩
      · obtain ⟨⟨inside', rest'⟩, hclosing, heq⟩ := Option.map_eq_some_iff.mp h
        obtain ⟨rfl, rfl⟩ := Prod.mk.inj heq
        obtain ⟨front, rfl, hfront⟩ := ih hclosing
        exact ⟨')' :: front, rfl, hfront⟩
    · next hc =>
      obtain ⟨⟨inside', rest'⟩, hclosing, heq⟩ := Option.map_eq_some_iff.mp h
      obtain ⟨rfl, rfl⟩ := Prod.mk.inj heq
      obtain ⟨front, rfl, hfront⟩ := ih hclosing
      refine ⟨c :: front, rfl, ?_⟩
      rw [openAfter?_cons hc, hfront]

/-- A matched text between parentheses is read up to the second one. -/
theorem parenthesis?_group (h : Matched inside) (rest : List Char) :
    parenthesis? ('(' :: inside ++ ')' :: rest) = some ('(' :: inside ++ [')'], rest) := by
  have hclosing := closing?_append h (')' :: rest)
  rw [List.cons_append, parenthesis?, hclosing]
  rfl

theorem Matched.of_parenthesis? (h : parenthesis? s = some (arguments, rest)) : Matched arguments := by
  unfold parenthesis? at h
  split at h
  · obtain ⟨⟨inside, rest'⟩, hclosing, heq⟩ := Option.map_eq_some_iff.mp h
    obtain ⟨rfl, rfl⟩ := Prod.mk.inj heq
    obtain ⟨front, rfl, hfront⟩ := openAfter?_of_closing? hclosing
    exact Matched.group hfront
  · cases h

end AnswerCheck.Spelling
