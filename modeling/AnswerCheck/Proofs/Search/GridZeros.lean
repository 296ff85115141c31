import AnswerCheck.Equation
import AnswerCheck.Proofs.Decimal.Binary64
import AnswerCheck.Proofs.Search.FoundRoots

/-! # Which exact zeros of the grid a scan finds

A cell contributes its left end if the residual is zero there, and its right end only if it is not.
So in a run of zeros each one is contributed by the cell on its right, and the last one depends on
the sample after it: where the grid ends there, or the residual has no value there, it is overlooked.
-/

set_option autoImplicit false

namespace AnswerCheck.Search

variable {α : Type} [Scalar α]

/-- The residual is exactly zero at the point. -/
def Vanishes (f : α → Option α) (x : α) : Prop :=
  ∃ y ∈ f x, isZero y = true

/-- The points are one, or the search takes them for the same. -/
def SamePoint (x y : α) : Prop :=
  x = y ∨ same x y = true

/-- The point is in the list, or one that the search takes for the same. -/
def Listed (points : List α) (x : α) : Prop :=
  ∃ p ∈ points, SamePoint p x

/-- The residual has a value at a grid point next to this one. -/
def HasNeighbour (f : α → Option α) (g : Grid α) (i : Nat) : Prop :=
  0 < i ∧ (f (g.sample (i - 1))).isSome = true ∨
    i < g.steps ∧ (f (g.sample (i + 1))).isSome = true

/-- The grid point is the right end of a cell with a zero at its left end, and no cell starts there
that has a value at its right end. -/
def Overlooked (f : α → Option α) (g : Grid α) (i : Nat) : Prop :=
  0 < i ∧ Vanishes f (g.sample (i - 1)) ∧ (i < g.steps → f (g.sample (i + 1)) = none)

instance (f : α → Option α) (x : α) : Decidable (Vanishes f x) :=
  inferInstanceAs (Decidable (∃ y ∈ f x, isZero y = true))

instance [DecidableEq α] (points : List α) (x : α) : Decidable (Listed points x) :=
  inferInstanceAs (Decidable (∃ p ∈ points, p = x ∨ same p x = true))

instance (f : α → Option α) (g : Grid α) (i : Nat) : Decidable (HasNeighbour f g i) :=
  inferInstanceAs (Decidable (_ ∨ _))

instance (f : α → Option α) (g : Grid α) (i : Nat) : Decidable (Overlooked f g i) :=
  inferInstanceAs (Decidable (_ ∧ _ ∧ (_ → _)))

/-! ## One cell -/

section Cell

variable {f : α → Option α} {limits : BisectionLimits α} {low high : α}

theorem cellRoot?_low (hlow : Vanishes f low) (hhigh : (f high).isSome = true) :
    cellRoot? f limits low high = some low := by
  obtain ⟨y, hy, hzero⟩ := hlow
  obtain ⟨z, hz⟩ := Option.isSome_iff_exists.mp hhigh
  rw [cellRoot?, Option.mem_def.mp hy, hz]
  exact if_pos hzero

theorem cellRoot?_high (hlow : (f low).isSome = true) (hne : ¬ Vanishes f low)
    (hhigh : Vanishes f high) : cellRoot? f limits low high = some high := by
  obtain ⟨y, hy⟩ := Option.isSome_iff_exists.mp hlow
  obtain ⟨z, hz, hzero⟩ := hhigh
  have hy' : ¬ isZero y = true := fun hzero => hne ⟨y, hy, hzero⟩
  rw [cellRoot?, hy, Option.mem_def.mp hz]
  simp only [if_neg hy', if_pos hzero]

theorem cellRoot?_none (hhigh : f high = none) : cellRoot? f limits low high = none := by
  rw [cellRoot?, hhigh]
  cases f low <;> rfl

theorem Vanishes.isSome {x : α} (h : Vanishes f x) : (f x).isSome = true := by
  obtain ⟨y, hy, -⟩ := h
  exact Option.isSome_iff_exists.mpr ⟨y, hy⟩

end Cell

/-! ## All cells -/

section Grid

variable {f : α → Option α} {candidates : List α} {options : ScanOptions α} {g : Grid α} {x : α}

theorem listed_addRoot (roots : List α) (x : α) : Listed (addRoot roots (some x)) x := by
  rw [addRoot]
  split
  · next hany =>
    obtain ⟨p, hp, hsame⟩ := List.any_eq_true.mp hany
    exact ⟨p, hp, Or.inr hsame⟩
  · exact ⟨x, by simp, Or.inl rfl⟩

theorem subset_addRoot (roots : List α) (root : Option α) : roots ⊆ addRoot roots root := by
  cases root with
  | none => exact fun _ => id
  | some x =>
    rw [addRoot]
    split
    · exact fun _ => id
    · exact List.subset_append_left roots [x]

theorem listed_of_cellRoot {j : Nat} (hg : scanGrid candidates options = g)
    (hextent : g.isEmpty = false) (hj : j < g.steps)
    (hx : cellRoot? f options.bisection (g.sample j) (g.sample (j + 1)) = some x) :
    Listed (scan f candidates options) x := by
  rw [scan, hg, gridRoots, if_neg (by simp [hextent])]
  refine exists_mem_foldl_of_step (fun p _ => SamePoint p x) (List.mem_range.mpr hj)
    (fun known => ?_) (fun known j => subset_addRoot known _)
  rw [hx]
  exact listed_addRoot known x

theorem exists_cellRoot_of_listed (hg : scanGrid candidates options = g)
    (h : Listed (scan f candidates options) x) :
    ∃ j < g.steps, ∃ p, cellRoot? f options.bisection (g.sample j) (g.sample (j + 1)) = some p ∧
      SamePoint p x := by
  obtain ⟨p, hp, hsame⟩ := h
  rw [scan, hg, gridRoots] at hp
  split at hp
  · cases hp
  · obtain hp | ⟨j, hj, hroot⟩ := mem_foldl_of_step hp fun _ _ _ => mem_addRoot
    · cases hp
    · exact ⟨j, List.mem_range.mp hj, p, hroot, hsame⟩

/-- A zero with a value next to it is contributed by one of its two cells, unless it is overlooked. -/
theorem exists_cellRoot_of_vanishes {limits : BisectionLimits α} {i : Nat} (hi : i ≤ g.steps)
    (hzero : Vanishes f (g.sample i)) (hnear : HasNeighbour f g i) (hseen : ¬ Overlooked f g i) :
    ∃ j < g.steps, cellRoot? f limits (g.sample j) (g.sample (j + 1)) = some (g.sample i) := by
  by_cases hright : i < g.steps ∧ (f (g.sample (i + 1))).isSome = true
  · exact ⟨i, hright.1, cellRoot?_low hzero hright.2⟩
  · obtain ⟨hpos, hleft⟩ := hnear.resolve_right hright
    obtain ⟨j, rfl⟩ : ∃ j, i = j + 1 := ⟨i - 1, by omega⟩
    rw [Nat.add_sub_cancel] at hleft
    refine ⟨j, hi, cellRoot?_high hleft (fun hzero' => hseen ⟨hpos, ?_, ?_⟩) hzero⟩
    · rwa [Nat.add_sub_cancel]
    · intro hlt
      exact Option.not_isSome_iff_eq_none.mp fun hsome => hright ⟨hlt, hsome⟩

/-- Neither of the two cells at an overlooked point contributes it: the left one contributes its own
left end, and the right one nothing. -/
theorem Overlooked.cellRoot? {limits : BisectionLimits α} {i j : Nat} (h : Overlooked f g i)
    (hzero : Vanishes f (g.sample i)) (hj : j < g.steps) (hcell : j + 1 = i ∨ j = i) :
    cellRoot? f limits (g.sample j) (g.sample (j + 1)) =
      if j = i then none else some (g.sample (i - 1)) := by
  obtain ⟨-, hleft, hright⟩ := h
  obtain rfl | rfl := hcell
  · rw [if_neg (by omega), Nat.add_sub_cancel] at *
    exact cellRoot?_low hleft hzero.isSome
  · rw [if_pos rfl]
    exact cellRoot?_none (hright hj)

end Grid

/-! ## Floating-point grids -/

theorem SamePoint.trans {x y z : Float} (hxy : SamePoint x y) (hyz : SamePoint y z) :
    SamePoint x z := by
  obtain rfl | hxy := hxy
  · exact hyz
  · obtain rfl | hyz := hyz
    · exact Or.inr hxy
    · exact Or.inr (Binary64.beq_trans hxy hyz)

theorem Listed.of_same {points : List Float} {x y : Float} (h : Listed points x)
    (hxy : SamePoint x y) : Listed points y := by
  obtain ⟨p, hp, hpx⟩ := h
  exact ⟨p, hp, hpx.trans hxy⟩

theorem Grid.isEmpty_of_lt {g : Grid Float} (h : g.start < g.stop) : g.isEmpty = false := by
  have hless : less g.stop g.start = false := decide_eq_false (Binary64.lt_asymm h)
  have hsame : same g.stop g.start = false := Binary64.beq_of_gt h
  rw [Grid.isEmpty, hless, hsame]
  rfl

/-- A grid point with a residual of exactly zero and a value next to it is listed by the scan, unless
it is overlooked. Then the zero on its left is listed, and the point itself only if it coincides with
that one or with what another cell contributes. -/
theorem vanishing_sample_listed (f : Float → Option Float) (candidates : List Float)
    (options : ScanOptions Float) (g : Grid Float) (hg : scanGrid candidates options = g)
    (hextent : g.start < g.stop) (i : Nat) (hi : i ≤ g.steps) (hzero : Vanishes f (g.sample i))
    (hnear : HasNeighbour f g i) :
    (¬ Overlooked f g i → Listed (scan f candidates options) (g.sample i)) ∧
    (Overlooked f g i → Listed (scan f candidates options) (g.sample (i - 1)) ∧
      (Listed (scan f candidates options) (g.sample i) ↔
        SamePoint (g.sample (i - 1)) (g.sample i) ∨
        ∃ j < g.steps, j + 1 ≠ i ∧ j ≠ i ∧ ∃ p,
          cellRoot? f options.bisection (g.sample j) (g.sample (j + 1)) = some p ∧
            SamePoint p (g.sample i))) := by
  have hlisted {j : Nat} {p : Float} (hj : j < g.steps)
      (hp : cellRoot? f options.bisection (g.sample j) (g.sample (j + 1)) = some p) :
      Listed (scan f candidates options) p :=
    listed_of_cellRoot hg (Grid.isEmpty_of_lt hextent) hj hp
  refine ⟨fun hseen => ?_, fun hover => ?_⟩
  · obtain ⟨j, hj, hp⟩ := exists_cellRoot_of_vanishes hi hzero hnear hseen
    exact hlisted hj hp
  · obtain ⟨k, rfl⟩ : ∃ k, i = k + 1 := Nat.exists_eq_add_one.mpr hover.1
    have hleft : Listed (scan f candidates options) (g.sample k) :=
      hlisted hi (cellRoot?_low hover.2.1 hzero.isSome)
    refine ⟨hleft, ?_, ?_⟩
    · intro hlist
      obtain ⟨j, hj, p, hp, hsame⟩ := exists_cellRoot_of_listed hg hlist
      by_cases hcell : j + 1 = k + 1 ∨ j = k + 1
      · rw [hover.cellRoot? hzero hj hcell] at hp
        split at hp
        · cases hp
        · obtain rfl := Option.some.inj hp
          exact Or.inl hsame
      · obtain ⟨hne, hne'⟩ := not_or.mp hcell
        exact Or.inr ⟨j, hj, hne, hne', p, hp, hsame⟩
    · rintro (hsame | ⟨j, hj, -, -, p, hp, hsame⟩)
      · exact hleft.of_same hsame
      · exact (hlisted hj hp).of_same hsame

/-- A scan from one point to another, with so many steps. -/
def scanBetween (min max : Float) (steps : Nat) : ScanOptions Float :=
  ⟨min, max, steps, 200, 50, ⟨1e-7, 30⟩⟩

/-- A residual that has no value below zero. -/
def threeZeros (x : Float) : Option Float :=
  if x < 0 then none else some (x * (x - 1) * (x - 2))

theorem vanishing_sample_listed_third :
    ∃ g, scanGrid [] (scanBetween (-1) 3 4) = g ∧ g.start < g.stop ∧ 3 ≤ g.steps ∧
      Vanishes threeZeros (g.sample 3) ∧ HasNeighbour threeZeros g 3 ∧
      ¬ Overlooked threeZeros g 3 ∧
      Listed (scan threeZeros [] (scanBetween (-1) 3 4)) (g.sample 3) := by
  refine ⟨_, rfl, ?_⟩
  have hextent : (scanGrid [] (scanBetween (-1) 3 4)).start < (scanGrid [] (scanBetween (-1) 3 4)).stop := by
    decide +kernel
  have hzero : Vanishes threeZeros ((scanGrid [] (scanBetween (-1) 3 4)).sample 3) := by
    decide +kernel
  have hnear : HasNeighbour threeZeros (scanGrid [] (scanBetween (-1) 3 4)) 3 := by decide +kernel
  have hseen : ¬ Overlooked threeZeros (scanGrid [] (scanBetween (-1) 3 4)) 3 := by decide +kernel
  exact ⟨hextent, by decide, hzero, hnear, hseen,
    (vanishing_sample_listed threeZeros [] _ _ rfl hextent 3 (by decide) hzero hnear).1 hseen⟩

/-- Both ends of a grid with a single cell are zeros, and the right one is lost. -/
theorem vanishing_sample_lost :
    ∃ e, Equation.ofText "x*(x-1)=0".toList = .ok e ∧
      ∃ g, scanGrid [] (scanBetween 0 1 1) = g ∧ g.start < g.stop ∧ 1 ≤ g.steps ∧
        Vanishes e.residual? (g.sample 1) ∧ HasNeighbour e.residual? g 1 ∧
        ¬ Listed (scan e.residual? [] (scanBetween 0 1 1)) (g.sample 1) := by
  let e : Equation := ⟨.arith .mul .var (.arith .sub .var (.number 1)), .number 0⟩
  have he : Equation.ofText "x*(x-1)=0".toList = .ok e := by rfl
  exact ⟨e, he, _, rfl, by decide +kernel, by decide, by decide +kernel, by decide +kernel,
    by decide +kernel⟩

end AnswerCheck.Search
