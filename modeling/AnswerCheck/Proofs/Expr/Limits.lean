import AnswerCheck.Expr.Compile

/-! # The limits of a side, and what they say of its parts

The limits are stated of all prefixes and all pieces of a text, and the counters that check them
compute them in one sweep. The levels that reading a text can need are counted by two measures of
the text: the parentheses open at once before the first one that closes nothing, and its powers.
-/

set_option autoImplicit false

namespace AnswerCheck

open Text

/-! ## Limits -/

def isSign (c : Char) : Bool :=
  c = '+' || c = '-'

/-- A piece of signs and blanks. -/
def IsSignRun (s : List Char) : Prop :=
  ∀ c ∈ s, isSign c = true ∨ isBlank c = true

/-- Parentheses open at the end of a text, when `opened` are open at its start; a closing one
without an opening one counts for nothing. -/
def unclosedFrom (opened : Nat) (s : List Char) : Nat :=
  s.foldl (fun n c => if c = '(' then n + 1 else if c = ')' then n - 1 else n) opened

/-- The size and the shape that a side may have. -/
structure WithinLimits (s : List Char) : Prop where
  nonempty : s ≠ []
  bytes : s.utf8Encode.size ≤ maxBytes
  /-- Nowhere are too many parentheses open. -/
  opened : ∀ p, p <+: s → unclosedFrom 0 p ≤ maxOpen
  /-- No piece of signs and blanks has too many signs. -/
  signs : ∀ r, r <:+: s → IsSignRun r → r.countP isSign ≤ maxSignRun
  powers : s.count '^' ≤ maxPowers

theorem bytes_append (s t : List Char) :
    (s ++ t).utf8Encode.size = s.utf8Encode.size + t.utf8Encode.size := by
  rw [List.utf8Encode_append, ByteArray.size_append]

theorem bytes_singleton (c : Char) : [c].utf8Encode.size = c.utf8Size := by
  simp [List.utf8Encode_singleton]

theorem byteCount_eq_size (s : List Char) : byteCount s = s.utf8Encode.size := by
  have hfold (n : Nat) : s.foldl (fun n c => n + c.utf8Size) n = n + s.utf8Encode.size := by
    induction s generalizing n with
    | nil => simp
    | cons c s ih =>
      rw [List.foldl_cons, ih, ← List.singleton_append, bytes_append, bytes_singleton]
      omega
  rw [byteCount, hfold]
  omega

theorem forall_prefix_cons {P : List Char → Prop} {c : Char} {s : List Char} :
    (∀ p, p <+: c :: s → P p) ↔ P [] ∧ ∀ p, p <+: s → P (c :: p) := by
  constructor
  · intro h
    exact ⟨h [] List.nil_prefix, fun p hp => h (c :: p) (List.prefix_cons_inj c |>.mpr hp)⟩
  · rintro ⟨hnil, hcons⟩ p hp
    obtain rfl | ⟨t, rfl, ht⟩ := List.prefix_cons_iff.mp hp
    · exact hnil
    · exact hcons t ht

theorem mostOpen_le_iff {opened m : Nat} {s : List Char} :
    mostOpen opened s ≤ m ↔ ∀ p, p <+: s → unclosedFrom opened p ≤ m := by
  fun_induction mostOpen opened s with
  | case1 => simp [unclosedFrom]
  | case2 opened s ih =>
    rw [ih, forall_prefix_cons]
    refine ⟨fun h => ⟨?_, h⟩, fun h => h.2⟩
    have := h [] List.nil_prefix
    simp only [unclosedFrom, List.foldl_nil] at this ⊢
    omega
  | case3 opened s ih =>
    rw [forall_prefix_cons, Nat.max_le, ih]
    exact Iff.rfl
  | case4 opened c s hopen hclose ih =>
    rw [ih, forall_prefix_cons]
    have hstep (p : List Char) : unclosedFrom opened (c :: p) = unclosedFrom opened p := by
      rw [unclosedFrom, List.foldl_cons, if_neg hopen, if_neg hclose]
      rfl
    simp only [hstep]
    exact ⟨fun h => ⟨h [] List.nil_prefix, h⟩, fun h => h.2⟩

theorem isSignRun_cons {c : Char} {s : List Char} :
    IsSignRun (c :: s) ↔ (isSign c = true ∨ isBlank c = true) ∧ IsSignRun s :=
  List.forall_mem_cons

theorem forall_infix_cons {P : List Char → Prop} {c : Char} {s : List Char} :
    (∀ r, r <:+: c :: s → P r) ↔ (∀ p, p <+: c :: s → P p) ∧ ∀ r, r <:+: s → P r := by
  simp only [List.infix_cons_iff, or_imp, forall_and]

theorem longestSignRun_cons (signs : Nat) (c : Char) (s : List Char) :
    longestSignRun signs (c :: s) =
      if isSign c then longestSignRun (signs + 1) s
      else if isBlank c then longestSignRun signs s
      else max signs (longestSignRun 0 s) := rfl

theorem isSign_of_isBlank {c : Char} (h : isBlank c = true) : isSign c = false := by
  simp only [isSign, Bool.or_eq_false_iff, decide_eq_false_iff_not]
  constructor <;>
  · rintro rfl
    cases h

/-- A run that goes on into the text, after this many signs, has no more than `m` of them. -/
def GoesOnWithin (m signs : Nat) (s : List Char) : Prop :=
  ∀ p, p <+: s → IsSignRun p → signs + p.countP isSign ≤ m

section GoesOnWithin

variable {m signs signs' : Nat} {c : Char} {s : List Char}

theorem isSignRun_nil : IsSignRun [] := by
  simp [IsSignRun]

theorem GoesOnWithin.le (h : GoesOnWithin m signs s) : signs ≤ m :=
  h [] List.nil_prefix isSignRun_nil

theorem GoesOnWithin.mono (h : GoesOnWithin m signs s) (hle : signs' ≤ signs) :
    GoesOnWithin m signs' s :=
  fun p hp hrun => Nat.le_trans (Nat.add_le_add_right hle _) (h p hp hrun)

theorem goesOnWithin_zero (h : ∀ r, r <:+: s → IsSignRun r → r.countP isSign ≤ m) :
    GoesOnWithin m 0 s := by
  intro p hp hrun
  rw [Nat.zero_add]
  exact h p hp.isInfix hrun

theorem goesOnWithin_cons : GoesOnWithin m signs (c :: s) ↔ signs ≤ m ∧
    (isSign c = true ∨ isBlank c = true → GoesOnWithin m (signs + if isSign c then 1 else 0) s) := by
  rw [GoesOnWithin, forall_prefix_cons]
  refine and_congr ⟨fun h => h isSignRun_nil, fun h _ => h⟩ ?_
  simp only [isSignRun_cons, List.countP_cons, GoesOnWithin]
  constructor
  · intro h hc p hp hrun
    have := h p hp ⟨hc, hrun⟩
    omega
  · intro h p hp hrun
    have := h hrun.1 p hp hrun.2
    omega

theorem forall_signRun_cons : (∀ r, r <:+: c :: s → IsSignRun r → r.countP isSign ≤ m) ↔
    GoesOnWithin m 0 (c :: s) ∧ ∀ r, r <:+: s → IsSignRun r → r.countP isSign ≤ m := by
  simp only [forall_infix_cons, GoesOnWithin, Nat.zero_add]

/-- The counter looks at the run that goes on from the start of the text and at all runs inside. -/
theorem longestSignRun_le_iff : longestSignRun signs s ≤ m ↔
    GoesOnWithin m signs s ∧ ∀ r, r <:+: s → IsSignRun r → r.countP isSign ≤ m := by
  induction s generalizing signs with
  | nil => simp [longestSignRun, GoesOnWithin, isSignRun_nil]
  | cons c s ih =>
    rw [longestSignRun_cons, forall_signRun_cons, goesOnWithin_cons, goesOnWithin_cons]
    by_cases hsign : isSign c = true
    · simp only [hsign, if_true, true_or, forall_const, ih]
      constructor
      · rintro ⟨hhead, hruns⟩
        have hle := hhead.le
        exact ⟨⟨by omega, hhead⟩, ⟨Nat.zero_le m, hhead.mono (by omega)⟩, hruns⟩
      · rintro ⟨⟨-, hhead⟩, -, hruns⟩
        exact ⟨hhead, hruns⟩
    · by_cases hblank : isBlank c = true
      · simp only [hsign, hblank, if_true, or_true, forall_const, ih, Bool.false_eq_true, if_false,
          Nat.add_zero]
        constructor
        · rintro ⟨hhead, hruns⟩
          exact ⟨⟨hhead.le, hhead⟩, ⟨Nat.zero_le m, hhead.mono (Nat.zero_le signs)⟩, hruns⟩
        · rintro ⟨⟨-, hhead⟩, -, hruns⟩
          exact ⟨hhead, hruns⟩
      · simp only [hsign, hblank, Bool.false_eq_true, if_false, or_self, false_implies, and_true,
          Nat.max_le, ih, Nat.zero_le, true_and]
        exact and_congr_right' ⟨fun h => h.2, fun h => ⟨goesOnWithin_zero h, h⟩⟩

theorem longestSignRun_zero_le_iff :
    longestSignRun 0 s ≤ m ↔ ∀ r, r <:+: s → IsSignRun r → r.countP isSign ≤ m := by
  rw [longestSignRun_le_iff]
  exact ⟨fun h => h.2, fun h => ⟨goesOnWithin_zero h, h⟩⟩

end GoesOnWithin

/-- No limit is reported exactly for the non-empty texts within the limits. -/
theorem brokenLimit?_eq_none_iff {s : List Char} :
    s ≠ [] ∧ brokenLimit? s = none ↔ WithinLimits s := by
  have hbytes : ¬ maxBytes < byteCount s ↔ s.utf8Encode.size ≤ maxBytes := by
    rw [byteCount_eq_size, Nat.not_lt]
  have hsigns : ¬ maxSignRun < longestSignRun 0 s ↔
      ∀ r, r <:+: s → IsSignRun r → r.countP isSign ≤ maxSignRun := by
    rw [Nat.not_lt, longestSignRun_zero_le_iff]
  have hopened : ¬ maxOpen < mostOpen 0 s ↔ ∀ p, p <+: s → unclosedFrom 0 p ≤ maxOpen := by
    rw [Nat.not_lt, mostOpen_le_iff]
  have hpowers : ¬ maxPowers < s.count '^' ↔ s.count '^' ≤ maxPowers := Nat.not_lt
  unfold brokenLimit?
  constructor
  · rintro ⟨hne, h⟩
    split at h
    · cases h
    · next h₁ =>
      split at h
      · cases h
      · next h₂ =>
        split at h
        · cases h
        · next h₃ =>
          split at h
          · cases h
          · next h₄ => exact ⟨hne, hbytes.mp h₁, hopened.mp h₃, hsigns.mp h₂, hpowers.mp h₄⟩
  · rintro ⟨hne, h₁, h₂, h₃, h₄⟩
    rw [if_neg (hbytes.mpr h₁), if_neg (hsigns.mpr h₃), if_neg (hopened.mpr h₂),
      if_neg (hpowers.mpr h₄)]
    exact ⟨hne, rfl⟩

/-! ## Runs of signs in parts of a text -/

theorem le_longestSignRun (signs : Nat) (s : List Char) : signs ≤ longestSignRun signs s :=
  (longestSignRun_le_iff.mp (Nat.le_refl _)).1.le

theorem longestSignRun_suffix (signs : Nat) (u s : List Char) :
    longestSignRun 0 s ≤ longestSignRun signs (u ++ s) := by
  have h := (longestSignRun_le_iff.mp (Nat.le_refl (longestSignRun signs (u ++ s)))).2
  exact longestSignRun_zero_le_iff.mpr fun r hr => h r (hr.trans (List.suffix_append u s).isInfix)

theorem longestSignRun_sign {signs : Nat} {gap s : List Char} {c : Char}
    (hgap : ∀ d ∈ gap, isBlank d = true) (hc : isSign c = true) :
    longestSignRun signs (gap ++ c :: s) = longestSignRun (signs + 1) s := by
  induction gap with
  | nil => rw [List.nil_append, longestSignRun_cons, if_pos hc]
  | cons d gap ih =>
    have hd := hgap d List.mem_cons_self
    rw [List.cons_append, longestSignRun_cons, isSign_of_isBlank hd, if_neg (by decide), if_pos hd]
    exact ih fun d' hd' => hgap d' (List.mem_cons_of_mem d hd')

/-! ## Parentheses in parts of a text -/

/-- Most parentheses open at once before the first one that closes nothing, when `opened` are open
at the start. -/
def openWithin (opened : Nat) : List Char → Nat
  | [] => opened
  | c :: s =>
    if c = '(' then openWithin (opened + 1) s
    else if c = ')' then if opened = 0 then 0 else max opened (openWithin (opened - 1) s)
    else openWithin opened s

theorem openWithin_le_mostOpen (opened : Nat) (s : List Char) :
    openWithin opened s ≤ mostOpen opened s := by
  fun_induction mostOpen opened s with
  | case1 => exact Nat.le_refl _
  | case2 opened s ih =>
    rw [openWithin, if_pos rfl]
    exact ih
  | case3 opened s ih =>
    rw [openWithin, if_neg (by decide), if_pos rfl]
    split
    · exact Nat.zero_le _
    · omega
  | case4 opened c s hopen hclose ih =>
    rw [openWithin, if_neg hopen, if_neg hclose]
    exact ih

theorem openWithin_succ (opened : Nat) (s : List Char) :
    openWithin opened s + 1 ≤ openWithin (opened + 1) s := by
  induction s generalizing opened with
  | nil => exact Nat.le_refl _
  | cons c s ih =>
    rw [openWithin, openWithin]
    split
    · exact ih (opened + 1)
    · split
      · cases opened with
        | zero =>
          rw [if_pos rfl, if_neg (by omega)]
          omega
        | succ opened =>
          have := ih opened
          rw [if_neg (by omega), if_neg (by omega), Nat.add_sub_cancel, Nat.add_sub_cancel]
          omega
      · exact ih opened

/-- A piece of text after which no more parentheses are open than before it. -/
def Balanced (u : List Char) : Prop :=
  ∀ opened s, openWithin opened s ≤ openWithin opened (u ++ s)

theorem balanced_of_no_parentheses {u : List Char} (h : ∀ c ∈ u, c ≠ '(' ∧ c ≠ ')') : Balanced u := by
  intro opened s
  induction u with
  | nil => exact Nat.le_refl _
  | cons c u ih =>
    obtain ⟨hopen, hclose⟩ := h c List.mem_cons_self
    rw [List.cons_append, openWithin, if_neg hopen, if_neg hclose]
    exact ih fun d hd => h d (List.mem_cons_of_mem c hd)

theorem Balanced.append {u v : List Char} (hu : Balanced u) (hv : Balanced v) : Balanced (u ++ v) := by
  intro opened s
  rw [List.append_assoc]
  exact Nat.le_trans (hv opened s) (hu opened (v ++ s))

theorem Balanced.parenthesized {u : List Char} (h : Balanced u) : Balanced ('(' :: u ++ [')']) := by
  intro opened s
  have hinside := h (opened + 1) (')' :: s)
  rw [openWithin, if_neg (by decide), if_pos rfl, if_neg (by omega), Nat.add_sub_cancel] at hinside
  rw [List.append_assoc, List.cons_append, List.singleton_append, openWithin, if_pos rfl]
  omega

/-! ## Levels that reading a text can need -/

/-- Entries into a parenthesis or an exponent that can lie one inside the other in a text. -/
def entries (s : List Char) : Nat :=
  openWithin 0 s + s.count '^'

theorem entries_append {u : List Char} (h : Balanced u) (s : List Char) :
    entries s ≤ entries (u ++ s) := by
  have := h 0 s
  rw [entries, entries, List.count_append]
  omega

theorem entries_opening (s : List Char) : entries s + 1 ≤ entries ('(' :: s) := by
  have := openWithin_succ 0 s
  rw [entries, entries, openWithin, if_pos rfl, List.count_cons_of_ne (by decide)]
  omega

theorem entries_caret (s : List Char) : entries s + 1 ≤ entries ('^' :: s) := by
  rw [entries, entries, openWithin, if_neg (by decide), if_neg (by decide), List.count_cons_self]
  omega

theorem entries_le {s : List Char} (h : WithinLimits s) : entries s ≤ maxOpen + maxPowers := by
  have hopened := mostOpen_le_iff.mpr h.opened
  have := openWithin_le_mostOpen 0 s
  have := h.powers
  rw [entries]
  omega

end AnswerCheck
