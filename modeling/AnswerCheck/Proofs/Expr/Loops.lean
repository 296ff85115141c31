import AnswerCheck.Proofs.Expr.Soundness

/-! # The loops over products and sums

A product and a sum are continued in steps, each of which takes at least one character. So the
number of steps that is allowed makes no difference, and the loops obey equations without it.
-/

set_option autoImplicit false

namespace AnswerCheck.Grammar

open Text

theorem Read.length_lt {category : Category} {s : List Char} {p : Parsed} (h : Read category s p) :
    p.rest.length < s.length := by
  obtain ⟨ts, used, hs, hspelled, hts⟩ := h
  cases hspelled with
  | nil => exact absurd rfl hts.ne_nil
  | cons token hgap _ =>
    obtain ⟨c, rest, htext, -⟩ := (hts.valid token List.mem_cons_self).head
    rw [hs, htext]
    simp only [List.length_append, List.length_cons]
    omega

theorem length_skipSpaces_le (s : List Char) : (skipSpaces s).length ≤ s.length := by
  obtain ⟨gap, hs, -⟩ := exists_gap s
  have := congrArg List.length hs
  rw [List.length_append] at this
  omega

/-- The first character of a text after its leading blanks. -/
def next (s : List Char) : Option Char :=
  (skipSpaces s).head?

/-! ## Loops -/

/-- Repeats a step at most `n` times, until it has nothing to add. -/
def loop (step : Parsed → Except Failure (Option Parsed)) : Nat → Parsed → Except Failure Parsed
  | 0, p => .ok p
  | n + 1, p =>
    match step p with
    | .error e => .error e
    | .ok none => .ok p
    | .ok (some q) => loop step n q

/-- A step that shortens the text is not made more often than the text has characters. -/
theorem loop_steps {step : Parsed → Except Failure (Option Parsed)}
    (hend : ∀ p, p.rest = [] → step p = .ok none)
    (hshort : ∀ p q, step p = .ok (some q) → q.rest.length < p.rest.length) {k m : Nat} {p : Parsed}
    (hk : p.rest.length ≤ k) (hm : p.rest.length ≤ m) : loop step k p = loop step m p := by
  have hstop (n : Nat) (hp : p.rest = []) : loop step n p = .ok p := by
    cases n with
    | zero => rfl
    | succ n => rw [loop, hend p hp]
  induction k generalizing m p with
  | zero =>
    have hp : p.rest = [] := List.length_eq_zero_iff.mp (by omega)
    rw [hstop 0 hp, hstop m hp]
  | succ k ih =>
    cases m with
    | zero =>
      have hp : p.rest = [] := List.length_eq_zero_iff.mp (by omega)
      rw [hstop 0 hp, hstop (k + 1) hp]
    | succ m =>
      rw [loop, loop]
      cases hstep : step p with
      | error e => rfl
      | ok o =>
        cases o with
        | none => rfl
        | some q =>
          have := hshort p q hstep
          refine ih (by omega) (by omega) fun n hq => ?_
          cases n with
          | zero => rfl
          | succ n => rw [loop, hend q hq]

/-- The chain goes on with an operand. -/
def Parsed.extend (p : Parsed) (op : Operator) (q : Parsed) : Parsed :=
  { q with expr := .arith op p.expr q.expr }

/-- The chain goes on with an operand, if there is one; only the lack of levels is a failure. -/
def Parsed.attempt (p : Parsed) (op : Operator) :
    Except Failure Parsed → Except Failure (Option Parsed)
  | .ok q => .ok (some (p.extend op q))
  | .error (.stuck _) => .ok none
  | .error .tooDeep => .error .tooDeep

theorem attempt_eq_some {p q : Parsed} {op : Operator} {r : Except Failure Parsed}
    (h : p.attempt op r = .ok (some q)) : ∃ f, r = .ok f ∧ q = p.extend op f := by
  unfold Parsed.attempt at h
  split at h
  · next f =>
    obtain rfl := Option.some.inj (Except.ok.inj h)
    exact ⟨f, rfl, rfl⟩
  · cases h
  · cases h

theorem length_lt_of_skipSpaces {s rest : List Char} {c : Char} (h : skipSpaces s = c :: rest) :
    rest.length < s.length := by
  have := length_skipSpaces_le s
  rw [h, List.length_cons] at this
  omega

variable {below : Level}

/-! ## Products -/

/-- One operator or factor that continues a product, or nothing. -/
def productStep (below : Level) (p : Parsed) : Except Failure (Option Parsed) :=
  match skipSpaces p.rest with
  | '*' :: rest => (signed below rest).map fun factor => some (p.extend .mul factor)
  | '/' :: rest => (signed below rest).map fun factor => some (p.extend .div factor)
  | _ =>
    if mayFollow p.ending (p.rest.dropWhile isBlank).head? then p.attempt .mul (power below p.rest)
    else .ok none

theorem productStep_times {op : Operator} {p : Parsed} {rest : List Char} (hop : op.binding = 2)
    (h : skipSpaces p.rest = op.symbol :: rest) :
    productStep below p = (signed below rest).map fun factor => some (p.extend op factor) := by
  cases op with
  | add => cases hop
  | sub => cases hop
  | mul => rw [productStep, h]; rfl
  | div => rw [productStep, h]; rfl

theorem productStep_other {p : Parsed} (hmul : ∀ rest, skipSpaces p.rest ≠ '*' :: rest)
    (hdiv : ∀ rest, skipSpaces p.rest ≠ '/' :: rest) :
    productStep below p =
      if mayFollow p.ending (p.rest.dropWhile isBlank).head? then
        p.attempt .mul (power below p.rest)
      else .ok none := by
  unfold productStep
  split
  · next rest h => exact absurd h (hmul rest)
  · next rest h => exact absurd h (hdiv rest)
  · rfl

theorem productTail_eq_loop (n : Nat) (p : Parsed) :
    productTail below n p = loop (productStep below) n p := by
  induction n generalizing p with
  | zero => rfl
  | succ n ih =>
    rw [productTail, loop]
    simp only [ih]
    split
    · next rest hrest =>
      rw [@productStep_times below .mul p rest rfl hrest]
      cases signed below rest <;> rfl
    · next rest hrest =>
      rw [@productStep_times below .div p rest rfl hrest]
      cases signed below rest <;> rfl
    · next hmul hdiv =>
      rw [productStep_other hmul hdiv]
      split
      · cases power below p.rest with
        | ok factor => rfl
        | error e => cases e <;> rfl
      · rfl

theorem productStep_end {p : Parsed} (hp : p.rest = []) : productStep below p = .ok none := by
  rw [productStep, hp]
  simp [skipSpaces, mayFollow]

theorem productStep_short (hbelow : below.Sound) {p q : Parsed}
    (h : productStep below p = .ok (some q)) : q.rest.length < p.rest.length := by
  have hsigned {c : Char} {rest : List Char} {op : Operator} (hrest : skipSpaces p.rest = c :: rest)
      (h : ((signed below rest).map fun factor => some (p.extend op factor)) = .ok (some q)) :
      q.rest.length < p.rest.length := by
    cases hf : signed below rest with
    | error e => rw [hf] at h; cases h
    | ok f =>
      rw [hf] at h
      obtain rfl := Option.some.inj (Except.ok.inj h)
      exact Nat.lt_trans (signed_sound hbelow hf).length_lt (length_lt_of_skipSpaces hrest)
  unfold productStep at h
  split at h
  · next rest hrest => exact hsigned hrest h
  · next rest hrest => exact hsigned hrest h
  · split at h
    · obtain ⟨f, hf, rfl⟩ := attempt_eq_some h
      exact (power_sound hbelow hf).length_lt
    · cases h

def productFrom (below : Level) (p : Parsed) : Except Failure Parsed :=
  productTail below p.rest.length p

theorem productFrom_eq (hbelow : below.Sound) (p : Parsed) :
    productFrom below p =
      match productStep below p with
      | .error e => .error e
      | .ok none => .ok p
      | .ok (some q) => productFrom below q := by
  have hsteps (n : Nat) (q : Parsed) (hn : q.rest.length ≤ n) :
      loop (productStep below) n q = productFrom below q := by
    rw [productFrom, productTail_eq_loop]
    exact loop_steps (fun p => productStep_end) (fun p q => productStep_short hbelow) hn (Nat.le_refl _)
  rw [← hsteps (p.rest.length + 1) p (by omega), loop]
  split
  · rfl
  · rfl
  · next q hq => exact hsteps _ q (Nat.le_of_lt (productStep_short hbelow hq))

/-! ## Sums -/

/-- One operator and product that continue a sum, or nothing. -/
def sumStep (below : Level) (p : Parsed) : Except Failure (Option Parsed) :=
  match skipSpaces p.rest with
  | '+' :: rest => p.attempt .add (product below rest)
  | '-' :: rest => p.attempt .sub (product below rest)
  | _ => .ok none

theorem sumStep_plus {op : Operator} {p : Parsed} {rest : List Char} (hop : op.binding = 1)
    (h : skipSpaces p.rest = op.symbol :: rest) :
    sumStep below p = p.attempt op (product below rest) := by
  cases op with
  | add => rw [sumStep, h]; rfl
  | sub => rw [sumStep, h]; rfl
  | mul => cases hop
  | div => cases hop

theorem sumStep_other {p : Parsed} (hadd : ∀ rest, skipSpaces p.rest ≠ '+' :: rest)
    (hsub : ∀ rest, skipSpaces p.rest ≠ '-' :: rest) : sumStep below p = .ok none := by
  unfold sumStep
  split
  · next rest h => exact absurd h (hadd rest)
  · next rest h => exact absurd h (hsub rest)
  · rfl

theorem sumTail_eq_loop (n : Nat) (p : Parsed) : sumTail below n p = loop (sumStep below) n p := by
  induction n generalizing p with
  | zero => rfl
  | succ n ih =>
    rw [sumTail, loop]
    simp only [ih]
    split
    · next rest hrest =>
      rw [@sumStep_plus below .add p rest rfl hrest]
      cases product below rest with
      | ok term => rfl
      | error e => cases e <;> rfl
    · next rest hrest =>
      rw [@sumStep_plus below .sub p rest rfl hrest]
      cases product below rest with
      | ok term => rfl
      | error e => cases e <;> rfl
    · next hadd hsub => rw [sumStep_other hadd hsub]

theorem sumStep_end {p : Parsed} (hp : p.rest = []) : sumStep below p = .ok none := by
  rw [sumStep, hp]
  simp [skipSpaces]

theorem sumStep_short (hbelow : below.Sound) {p q : Parsed} (h : sumStep below p = .ok (some q)) :
    q.rest.length < p.rest.length := by
  have hproduct {c : Char} {rest : List Char} {op : Operator} (hrest : skipSpaces p.rest = c :: rest)
      (h : p.attempt op (product below rest) = .ok (some q)) : q.rest.length < p.rest.length := by
    obtain ⟨f, hf, rfl⟩ := attempt_eq_some h
    exact Nat.lt_trans (product_sound hbelow hf).length_lt (length_lt_of_skipSpaces hrest)
  unfold sumStep at h
  split at h
  · next rest hrest => exact hproduct hrest h
  · next rest hrest => exact hproduct hrest h
  · cases h

def sumFrom (below : Level) (p : Parsed) : Except Failure Parsed :=
  sumTail below p.rest.length p

theorem sumFrom_eq (hbelow : below.Sound) (p : Parsed) :
    sumFrom below p =
      match sumStep below p with
      | .error e => .error e
      | .ok none => .ok p
      | .ok (some q) => sumFrom below q := by
  have hsteps (n : Nat) (q : Parsed) (hn : q.rest.length ≤ n) :
      loop (sumStep below) n q = sumFrom below q := by
    rw [sumFrom, sumTail_eq_loop]
    exact loop_steps (fun p => sumStep_end) (fun p q => sumStep_short hbelow) hn (Nat.le_refl _)
  rw [← hsteps (p.rest.length + 1) p (by omega), loop]
  split
  · rfl
  · rfl
  · next q hq => exact hsteps _ q (Nat.le_of_lt (sumStep_short hbelow hq))

end AnswerCheck.Grammar
