import AnswerCheck.Proofs.Expr.Acceptance
import AnswerCheck.Proofs.Expr.Levels

/-! # Reading without a limit on the levels

Readers without a limit are readers that are their own level above. They read every text as readers
of some number of levels do: what is left of a text bounds the levels that are entered from there, on
paths that are given up as well as on the one that is taken. In particular the limits of a side leave
levels enough for all of it.
-/

set_option autoImplicit false

namespace AnswerCheck.Grammar

open Text

variable {limit n signs : Nat} {s rest : List Char} {category : Category} {p q : Parsed}

/-! ## The text that is left -/

theorem Read.exists_balanced (h : Read category s p) : ∃ used, s = used ++ p.rest ∧ Balanced used := by
  obtain ⟨ts, used, hs, hspelled, hderives⟩ := h
  exact ⟨used, hs, hderives.balanced hspelled⟩

theorem Tight.after_read (h : Tight limit n s) (hread : Read category s p) : Tight limit n p.rest := by
  obtain ⟨used, rfl, hused⟩ := hread.exists_balanced
  exact h.suffix hused

theorem Room.after_read (h : Room limit n 0 s) (hread : Read category s p) : Room limit n 0 p.rest := by
  obtain ⟨used, rfl, hused⟩ := hread.exists_balanced
  exact h.suffix hused

theorem Room.after_operator (h : Room limit n 0 s) (op : Operator)
    (hrest : skipSpaces s = op.symbol :: rest) : Room limit n 0 rest := by
  obtain ⟨gap, hs, hgap⟩ := exists_gap s
  rw [hs, hrest] at h
  exact h.operator hgap

/-- Opening a parenthesis, or raising to a power, leaves levels for what is entered. -/
theorem Tight.after_entry {c : Char} (h : Tight limit n s) (hrest : skipSpaces s = c :: rest)
    (hc : entries rest + 1 ≤ entries (c :: rest)) : ∃ m, n = m + 1 ∧ Room limit m 0 rest := by
  obtain ⟨gap, hs, hgap⟩ := exists_gap s
  rw [hs, hrest] at h
  exact h.entry hgap hc

theorem continuesName_of_startsName {c : Char} (h : startsName c = true) : continuesName c = true := by
  simp only [startsName, Bool.or_eq_true, decide_eq_true_eq] at h
  simp only [continuesName, Char.isAlphanum, Bool.or_eq_true, decide_eq_true_eq]
  exact h.imp_left Or.inl

theorem continuesName_of_readName {name : List Char} (h : readName s = (name, rest)) :
    ∀ c ∈ name, continuesName c = true := by
  unfold readName at h
  split at h
  · obtain ⟨rfl, -⟩ := Prod.mk.inj h
    simp
  · split at h
    · next hstart =>
      obtain ⟨rfl, -⟩ := Prod.mk.inj h
      exact List.forall_mem_cons.mpr
        ⟨continuesName_of_startsName hstart, fun c hc => List.mem_takeWhile_imp hc⟩
    · obtain ⟨rfl, -⟩ := Prod.mk.inj h
      simp

theorem balanced_name {name : List Char} (h : readName s = (name, rest)) : Balanced name := by
  refine balanced_of_no_parentheses fun c hc => ?_
  have hname := continuesName_of_readName h c hc
  constructor <;>
  · rintro rfl
    cases hname

/-! ## No lack of levels -/

/-- The readers of `n` levels never lack a level for a text that leaves enough. -/
structure Suffices (limit n : Nat) : Prop where
  sum {s : List Char} (h : Room limit n 0 s) : sum (readers n) s ≠ .error .tooDeep
  exponent {s : List Char} {signs : Nat} (h : Room limit n signs s) :
    exponent (readers n) s ≠ .error .tooDeep
  signed {s : List Char} {signs : Nat} (h : Room limit n signs s) :
    signed (readers n) s ≠ .error .tooDeep

theorem bind_ne_tooDeep {α β : Type} {r : Except Failure α} {f : α → Except Failure β}
    (h : r ≠ .error .tooDeep) (hf : ∀ a, r = .ok a → f a ≠ .error .tooDeep) :
    r >>= f ≠ .error .tooDeep := by
  cases r with
  | error e => simpa [bind, Except.bind] using h
  | ok a => exact hf a rfl

theorem map_ne_tooDeep {α β : Type} {r : Except Failure α} (h : r ≠ .error .tooDeep) (f : α → β) :
    r.map f ≠ .error .tooDeep := by
  cases r with
  | error e => simpa [Except.map] using h
  | ok a => exact nofun

theorem failAt_ne_tooDeep {r : Except Failure Parsed} (h : r ≠ .error .tooDeep) (place : List Char) :
    failAt place r ≠ .error .tooDeep := by
  unfold failAt
  split
  · exact nofun
  · exact h

theorem attempt_ne_tooDeep {r : Except Failure Parsed} (h : r ≠ .error .tooDeep) (op : Operator) :
    p.attempt op r ≠ .error .tooDeep := by
  unfold Parsed.attempt
  split
  · exact nofun
  · exact nofun
  · exact absurd rfl h

theorem loop_ne_tooDeep {step : Parsed → Except Failure (Option Parsed)} {inv : Parsed → Prop}
    (hstep : ∀ p, inv p → step p ≠ .error .tooDeep)
    (hkeep : ∀ p q, inv p → step p = .ok (some q) → inv q) (steps : Nat) (hp : inv p) :
    loop step steps p ≠ .error .tooDeep := by
  induction steps generalizing p with
  | zero => simp [loop]
  | succ steps ih =>
    have hne := hstep p hp
    rw [loop]
    cases hfound : step p with
    | error e => simpa [hfound] using hne
    | ok found =>
      cases found with
      | none => simp
      | some q => exact ih (hkeep p q hp hfound)

theorem productStep_sound {below : Level} (hbelow : below.Sound) (hp : Read .product s p)
    (h : productStep below p = .ok (some q)) : Read .product s q := by
  have htail : productTail below 1 p = .ok q := by
    rw [productTail_eq_loop, loop, h]
    rfl
  exact productTail_sound hbelow hp htail

theorem sumStep_sound {below : Level} (hbelow : below.Sound) (hp : Read .sum s p)
    (h : sumStep below p = .ok (some q)) : Read .sum s q := by
  have htail : sumTail below 1 p = .ok q := by
    rw [sumTail_eq_loop, loop, h]
    rfl
  exact sumTail_sound hbelow hp htail

section Below

variable (hbelow : ∀ m, n = m + 1 → Suffices limit m)

include hbelow

theorem group_ne_tooDeep {m : Nat} (hn : n = m + 1) (h : Room limit m 0 s) :
    group (readers n) s ≠ .error .tooDeep := by
  subst hn
  refine bind_ne_tooDeep ((hbelow m rfl).sum h) fun inner _ => ?_
  split <;> exact nofun

theorem named_ne_tooDeep (h : Tight limit n s) : named (readers n) s ≠ .error .tooDeep := by
  unfold named
  rcases hname : readName s with ⟨name, rest⟩
  dsimp only
  split_ifs
  · exact nofun
  · exact nofun
  · split
    · next f inside _ hopening =>
      rw [readName_eq hname] at h
      obtain ⟨m, hn, hroom⟩ := (h.suffix (balanced_name hname)).after_entry hopening (entries_opening inside)
      exact bind_ne_tooDeep (group_ne_tooDeep hbelow hn hroom) fun _ _ => nofun
    · exact nofun

theorem factor_ne_tooDeep (h : Tight limit n s) : factor (readers n) s ≠ .error .tooDeep := by
  unfold factor
  dsimp only
  split
  · next inside hopening =>
    obtain ⟨m, hn, hroom⟩ := h.after_entry hopening (entries_opening inside)
    exact group_ne_tooDeep hbelow hn hroom
  · split
    · exact nofun
    · obtain ⟨gap, hs, hgap⟩ := exists_gap s
      rw [hs] at h
      exact failAt_ne_tooDeep (named_ne_tooDeep hbelow (h.suffix (balanced_gap hgap))) _

theorem power_ne_tooDeep (h : Tight limit n s) : power (readers n) s ≠ .error .tooDeep := by
  refine bind_ne_tooDeep (factor_ne_tooDeep hbelow h) fun base hbase => ?_
  split
  · next rest hcaret =>
    -- The base closes what it opens, so at the caret as much is open as at the start.
    obtain ⟨m, rfl, hroom⟩ :=
      (h.after_read (factor_sound (readers_sound n) hbase)).after_entry hcaret (entries_caret rest)
    exact bind_ne_tooDeep ((hbelow m rfl).exponent hroom) fun _ _ => nofun
  · exact nofun

theorem withSigns_ne_tooDeep (h : Room limit n signs s) {operand : Reader}
    (hoperand : ∀ m rest, n = m + 1 → Room limit m (signs + 1) rest → operand rest ≠ .error .tooDeep) :
    withSigns (readers n) operand s ≠ .error .tooDeep := by
  obtain ⟨gap, hs, hgap⟩ := exists_gap s
  have hsign {c : Char} {rest : List Char} (hrest : skipSpaces s = c :: rest) (hc : isSign c = true) :
      operand rest ≠ .error .tooDeep := by
    rw [hs, hrest] at h
    obtain ⟨m, hn, hroom⟩ := h.sign hgap hc
    exact hoperand m rest hn hroom
  unfold withSigns
  dsimp only
  split
  · next rest hrest => exact bind_ne_tooDeep (failAt_ne_tooDeep (hsign hrest rfl) _) fun _ _ => nofun
  · next rest hrest => exact failAt_ne_tooDeep (hsign hrest rfl) _
  · rw [power_skipSpaces]
    exact power_ne_tooDeep hbelow h.tight

theorem signed_ne_tooDeep (h : Room limit n signs s) : signed (readers n) s ≠ .error .tooDeep := by
  refine withSigns_ne_tooDeep hbelow h fun m rest hn hroom => ?_
  subst hn
  exact (hbelow m rfl).signed hroom

theorem exponent_ne_tooDeep (h : Room limit n signs s) : exponent (readers n) s ≠ .error .tooDeep := by
  refine withSigns_ne_tooDeep hbelow h fun m rest hn hroom => ?_
  subst hn
  exact (hbelow m rfl).exponent hroom

theorem productStep_ne_tooDeep (h : Room limit n 0 p.rest) :
    productStep (readers n) p ≠ .error .tooDeep := by
  unfold productStep
  split
  · next rest hrest => exact map_ne_tooDeep (signed_ne_tooDeep hbelow (h.after_operator .mul hrest)) _
  · next rest hrest => exact map_ne_tooDeep (signed_ne_tooDeep hbelow (h.after_operator .div hrest)) _
  · split
    · exact attempt_ne_tooDeep (power_ne_tooDeep hbelow h.tight) .mul
    · exact nofun

theorem product_ne_tooDeep (h : Room limit n 0 s) : product (readers n) s ≠ .error .tooDeep := by
  have hsound := readers_sound n
  refine bind_ne_tooDeep (signed_ne_tooDeep hbelow h) fun first hfirst => ?_
  rw [productTail_eq_loop]
  -- At every turn a product was read, and its rest is read with the same levels.
  refine loop_ne_tooDeep (fun p hp => ?_) (fun p q => productStep_sound hsound)
    first.rest.length ((signed_sound hsound hfirst).derive fun ts => Derives.operand)
  exact productStep_ne_tooDeep hbelow (h.after_read hp)

theorem sumStep_ne_tooDeep (h : Room limit n 0 p.rest) : sumStep (readers n) p ≠ .error .tooDeep := by
  unfold sumStep
  split
  · next rest hrest => exact attempt_ne_tooDeep (product_ne_tooDeep hbelow (h.after_operator .add hrest)) .add
  · next rest hrest => exact attempt_ne_tooDeep (product_ne_tooDeep hbelow (h.after_operator .sub hrest)) .sub
  · exact nofun

theorem sum_ne_tooDeep (h : Room limit n 0 s) : sum (readers n) s ≠ .error .tooDeep := by
  have hsound := readers_sound n
  refine bind_ne_tooDeep (product_ne_tooDeep hbelow h) fun first hfirst => ?_
  rw [sumTail_eq_loop]
  refine loop_ne_tooDeep (fun p hp => ?_) (fun p q => sumStep_sound hsound)
    first.rest.length ((product_sound hsound hfirst).derive fun ts => Derives.term)
  exact sumStep_ne_tooDeep hbelow (h.after_read hp)

end Below

/-- An entry leaves enough for what is entered, so no level is lacking on any path. -/
theorem suffices_levels (limit n : Nat) : Suffices limit n := by
  induction n using Nat.strongRecOn with
  | ind n ih =>
    -- Whatever is entered again is read with one level less.
    have hbelow (m : Nat) (hm : n = m + 1) : Suffices limit m := ih m (by omega)
    exact ⟨sum_ne_tooDeep hbelow, exponent_ne_tooDeep hbelow, signed_ne_tooDeep hbelow⟩

/-! ## Readers without a limit -/

/-- Readers that are the ones of the level above: entering the grammar again uses up nothing. -/
def Level.Unbounded (u : Level) : Prop :=
  u.above = u

theorem Level.Unbounded.approximated {u : Level} (h : u.Unbounded) (n : Nat) :
    (readers n).Approximates u := by
  induction n with
  | zero => exact none_approximates u
  | succ n ih =>
    have habove := ih.above
    rwa [h] at habove

/-- Levels that are enough for all of a text. -/
def levelsFor (s : List Char) : Nat :=
  (longestSignRun 0 s + 1) * entries s + longestSignRun 0 s

theorem room_levelsFor (s : List Char) : Room (longestSignRun 0 s) (levelsFor s) 0 s :=
  ⟨Nat.le_refl _, Nat.le_refl _⟩

/-- The readers that take as many levels as the text can need. -/
def unbounded : Level where
  sum s := sum (readers (levelsFor s)) s
  exponent s := exponent (readers (levelsFor s)) s
  signed s := signed (readers (levelsFor s)) s

/-- Readers that never lack a level. -/
structure Level.NeverTooDeep (u : Level) : Prop where
  sum (s : List Char) : u.sum s ≠ .error .tooDeep
  exponent (s : List Char) : u.exponent s ≠ .error .tooDeep
  signed (s : List Char) : u.signed s ≠ .error .tooDeep

theorem unbounded_neverTooDeep : unbounded.NeverTooDeep where
  sum s := (suffices_levels _ _).sum (room_levelsFor s)
  exponent s := (suffices_levels _ _).exponent (room_levelsFor s)
  signed s := (suffices_levels _ _).signed (room_levelsFor s)

theorem Level.Approximates.eq {a b : Level} (h : a.Approximates b) (ha : a.NeverTooDeep) : a = b := by
  have hsum : a.sum = b.sum := funext fun s => (h.sum s).eq (ha.sum s)
  have hexponent : a.exponent = b.exponent := funext fun s => (h.exponent s).eq (ha.exponent s)
  have hsigned : a.signed = b.signed := funext fun s => (h.signed s).eq (ha.signed s)
  cases a
  cases b
  exact Level.mk.injEq .. ▸ ⟨hsum, hexponent, hsigned⟩

/-- Levels enough for a text read it as any number of levels does that is not too small. -/
theorem approximates_enough (read : Level → Reader)
    (hread : ∀ {a b : Level}, a.Approximates b → ∀ s, Grammar.Approximates (read a s) (read b s))
    (henough : read (readers n) s ≠ .error .tooDeep) (m : Nat) :
    Grammar.Approximates (read (readers m) s) (read (readers n) s) := by
  obtain h | h := Nat.le_total m n
  · exact hread (readers_approximates h) s
  · exact Or.inr ((hread (readers_approximates h) s).eq henough).symm

theorem readers_approximates_unbounded (n : Nat) : (readers n).Approximates unbounded := by
  cases n with
  | zero => exact none_approximates unbounded
  | succ m =>
    constructor
    · exact fun s =>
        approximates_enough Grammar.sum (·.above.sum) (unbounded_neverTooDeep.sum s) m
    · exact fun s =>
        approximates_enough Grammar.exponent (·.above.exponent) (unbounded_neverTooDeep.exponent s) m
    · exact fun s =>
        approximates_enough Grammar.signed (·.above.signed) (unbounded_neverTooDeep.signed s) m

theorem unbounded_above : unbounded.Unbounded := by
  have habove : unbounded.Approximates unbounded.above := by
    constructor
    · exact fun s => (readers_approximates_unbounded (levelsFor s)).above.sum s
    · exact fun s => (readers_approximates_unbounded (levelsFor s)).above.exponent s
    · exact fun s => (readers_approximates_unbounded (levelsFor s)).above.signed s
  exact (habove.eq unbounded_neverTooDeep).symm

theorem Level.Unbounded.eq {u : Level} (h : u.Unbounded) : u = unbounded := by
  have happroximates : unbounded.Approximates u := by
    constructor
    · exact fun s => (h.approximated (levelsFor s + 1)).sum s
    · exact fun s => (h.approximated (levelsFor s + 1)).exponent s
    · exact fun s => (h.approximated (levelsFor s + 1)).signed s
  exact (happroximates.eq unbounded_neverTooDeep).symm

theorem room_of_limits (h : brokenLimit? s = none) : Room maxSignRun maxReaderLevels 0 s := by
  by_cases hs : s = []
  · subst hs
    constructor <;> decide
  · exact (brokenLimit?_eq_none_iff.mp ⟨hs, h⟩).room

/-- There are readers without a limit on their levels, and no two of them. A text within the limits
is read by them as with the levels that the limits were made for, or with more, and no reading of it,
whether it succeeds or fails, lacks a level. -/
theorem limits_bound_levels (h : brokenLimit? s = none) :
    maxReaderLevels = 64 + 64 + 16 * 129 ∧ (∃! u : Level, u.Unbounded) ∧
    ∀ u : Level, u.Unbounded → ∀ n, maxReaderLevels ≤ n →
      (level n).sum s = u.sum s ∧ (level n).sum s ≠ .error .tooDeep := by
  refine ⟨rfl, ⟨unbounded, unbounded_above, fun u hu => hu.eq⟩, fun u hu n hn => ?_⟩
  have henough : sum (readers maxReaderLevels) s ≠ .error .tooDeep :=
    (suffices_levels _ _).sum (room_of_limits h)
  have hmore : sum (readers maxReaderLevels) s = sum (readers n) s :=
    ((readers_approximates hn).above.sum s).eq henough
  have hunbounded : sum (readers maxReaderLevels) s = u.sum s :=
    ((hu.approximated (maxReaderLevels + 1)).sum s).eq henough
  have hlevel : (level n).sum s = sum (readers n) s := by
    rw [level_eq_readers]
    rfl
  rw [hlevel, ← hmore]
  exact ⟨hunbounded, henough⟩

/-- An exponent with a sign is read without a limit, and a text that breaks off after the sign is not. -/
theorem limits_bound_levels_power :
    brokenLimit? ['x', '^', '-', '(', 'x', ')'] = none ∧ brokenLimit? ['(', 'x', '^', '-'] = none ∧
      ∀ u : Level, u.Unbounded →
        u.sum ['x', '^', '-', '(', 'x', ')'] = .ok ⟨.power .var (.neg .var), .closing, []⟩ ∧
        u.sum ['(', 'x', '^', '-'] = .error (.stuck ['-']) := by
  have hpower : brokenLimit? ['x', '^', '-', '(', 'x', ')'] = none := by decide
  have hopen : brokenLimit? ['(', 'x', '^', '-'] = none := by decide
  refine ⟨hpower, hopen, fun u hu => ?_⟩
  obtain ⟨-, -, hlevels⟩ := limits_bound_levels hpower
  obtain ⟨-, -, hlevels'⟩ := limits_bound_levels hopen
  rw [← (hlevels u hu maxReaderLevels (Nat.le_refl _)).1, ← (hlevels' u hu maxReaderLevels (Nat.le_refl _)).1]
  exact ⟨rfl, rfl⟩

/-- The exponent, its sign and the parenthesis take a level each. -/
example : (level 2).sum ['x', '^', '-', '(', 'x', ')'] = .error .tooDeep ∧
    (level 3).sum ['x', '^', '-', '(', 'x', ')'] = .ok ⟨.power .var (.neg .var), .closing, []⟩ :=
  ⟨rfl, rfl⟩

end AnswerCheck.Grammar
