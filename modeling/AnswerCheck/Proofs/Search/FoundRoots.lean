import AnswerCheck.Proofs.Search.Halving
import AnswerCheck.Search.Scan

/-! # What a scan finds

Each root of a scan comes from one cell of the grid: it is an end of the cell where the residual is
exactly zero, or it was found by halving the cell.
-/

set_option autoImplicit false

namespace AnswerCheck.Search

variable {α : Type} [Scalar α]

/-- The midpoint of what is left of a cell with a sign change when all halvings are used up, none of
the midpoints on the way being accepted. Nothing is known of the residual there. -/
def GivenUp (f : α → Option α) (limits : BisectionLimits α) (g : Grid α) (x : α) : Prop :=
  ∃ i < g.steps, ∃ low high,
    Brackets f (g.sample i) (g.sample (i + 1)) ∧
    Halved f limits.tolerance limits.maxIterations (g.sample i) (g.sample (i + 1)) low high ∧
    Brackets f low high ∧ x = midpoint low high

/-- The ways in which a point can be the root of a grid. -/
def Found (f : α → Option α) (limits : BisectionLimits α) (g : Grid α) (x : α) : Prop :=
  (∃ y, f x = some y ∧ isZero y = true) ∨ Confirms f limits.tolerance x ∨ GivenUp f limits g x

theorem found_of_cellRoot {f : α → Option α} {limits : BisectionLimits α} {g : Grid α} {i : Nat}
    {x : α} (hi : i < g.steps)
    (h : cellRoot? f limits (g.sample i) (g.sample (i + 1)) = some x) : Found f limits g x := by
  unfold cellRoot? at h
  split at h
  · next y z hy hz =>
    split at h
    · next hzero =>
      rw [Option.some.injEq] at h
      exact Or.inl ⟨y, h ▸ hy, hzero⟩
    · split at h
      · next hzero =>
        rw [Option.some.injEq] at h
        exact Or.inl ⟨z, h ▸ hz, hzero⟩
      · split at h
        · obtain ⟨hcell, k, -, low, high, hrun, hm, haccepted | rfl⟩ := bisect_eq_some h
          · exact Or.inr (Or.inl haccepted)
          · exact Or.inr (Or.inr
              ⟨i, hi, low, high, hcell.brackets, hrun, hrun.brackets hcell.brackets, hm⟩)
        · cases h
  · cases h

theorem mem_addRoot {roots : List α} {root : Option α} {x : α} (h : x ∈ addRoot roots root) :
    x ∈ roots ∨ root = some x := by
  cases root with
  | none => exact Or.inl h
  | some r =>
    rw [addRoot] at h
    split at h
    · exact Or.inl h
    · rw [List.mem_append, List.mem_singleton] at h
      exact h.imp_right fun hr => congrArg some hr.symm

/-- What a fold collects was there at the start or came with one of the steps. -/
theorem mem_foldl_of_step {β γ : Type} {add : List γ → β → List γ} {from? : γ → β → Prop}
    {bs : List β} {known : List γ} {x : γ} (h : x ∈ bs.foldl add known)
    (hadd : ∀ known b x, x ∈ add known b → x ∈ known ∨ from? x b) :
    x ∈ known ∨ ∃ b ∈ bs, from? x b := by
  induction bs generalizing known with
  | nil => exact Or.inl h
  | cons b bs ih =>
    rw [List.foldl_cons] at h
    obtain h | ⟨c, hc, hx⟩ := ih h
    · obtain h | h := hadd known b x h
      · exact Or.inl h
      · exact Or.inr ⟨b, List.mem_cons_self, h⟩
    · exact Or.inr ⟨c, List.mem_cons_of_mem b hc, hx⟩

/-- A fold whose steps lose nothing has, for every element, what the step of the element left. -/
theorem exists_mem_foldl_of_step {β γ : Type} {add : List γ → β → List γ} (stands? : γ → β → Prop)
    {bs : List β} {known : List γ} {b : β} (hb : b ∈ bs) (hstands : ∀ known, ∃ x ∈ add known b, stands? x b)
    (hkeep : ∀ known c, known ⊆ add known c) : ∃ x ∈ bs.foldl add known, stands? x b := by
  have hmono : ∀ (bs : List β) (known : List γ), known ⊆ bs.foldl add known := by
    intro bs
    induction bs with
    | nil => exact fun _ _ => id
    | cons c bs ih => exact fun known _ hx => ih _ (hkeep known c hx)
  induction bs generalizing known with
  | nil => cases hb
  | cons c bs ih =>
    obtain rfl | hb := List.mem_cons.mp hb
    · obtain ⟨x, hx, hxb⟩ := hstands known
      exact ⟨x, hmono bs _ hx, hxb⟩
    · exact ih hb

/-- A fold collects something if it starts with something or one of its steps adds something. -/
theorem foldl_ne_nil {β γ : Type} {add : List γ → β → List γ} {adds : β → Prop} {bs : List β}
    {known : List γ} (h : known ≠ [] ∨ ∃ b ∈ bs, adds b)
    (hadd : ∀ known b, known ≠ [] ∨ adds b → add known b ≠ []) : bs.foldl add known ≠ [] := by
  induction bs generalizing known with
  | nil => exact h.resolve_right (by simp)
  | cons b bs ih =>
    rw [List.foldl_cons]
    refine ih ?_
    obtain h | ⟨c, hc, hadds⟩ := h
    · exact Or.inl (hadd known b (Or.inl h))
    · obtain rfl | hc := List.mem_cons.mp hc
      · exact Or.inl (hadd known c (Or.inr hadds))
      · exact Or.inr ⟨c, hc, hadds⟩

theorem addRoot_ne_nil {roots : List α} {root : Option α} (h : roots ≠ [] ∨ ∃ x, root = some x) :
    addRoot roots root ≠ [] := by
  cases root with
  | none => exact h.resolve_right (by simp)
  | some r =>
    rw [addRoot]
    split
    · next hany =>
      obtain ⟨x, hx, -⟩ := List.any_eq_true.mp hany
      exact List.ne_nil_of_mem hx
    · simp

/-- Every root of a scan is a zero, an accepted midpoint, or what is left of a given-up cell. -/
theorem found_of_mem_scan {f : α → Option α} {candidates : List α} {options : ScanOptions α} {x : α}
    (h : x ∈ scan f candidates options) :
    Found f options.bisection (scanGrid candidates options) x := by
  unfold scan gridRoots at h
  split at h
  · cases h
  · obtain h | ⟨i, hi, hx⟩ := mem_foldl_of_step h fun _ _ _ => mem_addRoot
    · cases h
    · exact found_of_cellRoot (List.mem_range.mp hi) hx

/-- A scan finds something if one of its cells contributes a root. -/
theorem scan_ne_nil {f : α → Option α} {candidates : List α} {options : ScanOptions α} {i : Nat}
    {x : α} (hgrid : (scanGrid candidates options).isEmpty = false)
    (hi : i < (scanGrid candidates options).steps)
    (hx : cellRoot? f options.bisection ((scanGrid candidates options).sample i)
      ((scanGrid candidates options).sample (i + 1)) = some x) :
    scan f candidates options ≠ [] := by
  rw [scan, gridRoots, if_neg (by simp [hgrid])]
  exact foldl_ne_nil (Or.inr ⟨i, List.mem_range.mpr hi, x, hx⟩) fun _ _ => addRoot_ne_nil

/-- Every accepted candidate is confirmed by its residual. -/
theorem confirms_of_mem_accepted {f : α → Option α} {candidates : List α} {tolerance x : α}
    (h : x ∈ accepted f candidates tolerance) : Confirms f tolerance x := by
  obtain ⟨-, hx⟩ := List.mem_filter.mp h
  cases hf : f x with
  | none => simp [hf] at hx
  | some y => exact ⟨y, hf, by simpa [hf] using hx⟩

end AnswerCheck.Search
