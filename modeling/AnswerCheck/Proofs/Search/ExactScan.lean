import AnswerCheck.Proofs.Search.ExactBisection
import AnswerCheck.Search.Scan

/-! # A scan without rounding

Exact samples rise from one end of the interval to the other, and what a cell contributes lies inside
it. So the roots rise in the order of their cells, the only point that two cells can share is the
sample between them, and it is listed once.
-/

set_option autoImplicit false

namespace AnswerCheck.Search

variable {f : Exact → Exact} {start stop low high q : ℚ} {steps i j n : Nat} {x : Exact}
  {limits : BisectionLimits Exact} {candidates : List Exact} {options : ScanOptions Exact}

/-! ## The grid -/

/-- The point number `i` of an interval cut into equal steps. -/
def gridPoint (start stop : ℚ) (steps i : Nat) : ℚ :=
  start + i * (stop - start) / steps

theorem sample_exact (hsteps : steps ≠ 0) (start stop : ℚ) (i : Nat) :
    (⟨start, stop, steps⟩ : Grid Exact).sample i = gridPoint start stop steps i := by
  have hne : (steps : ℚ) ≠ 0 := Nat.cast_ne_zero.mpr hsteps
  rw [Grid.sample, Exact.ofNat_finite, Exact.ofNat_finite, Exact.sub_finite, Exact.mul_finite,
    Exact.div_finite _ hne, Exact.add_finite, gridPoint]

theorem gridPoint_zero (start stop : ℚ) (steps : Nat) : gridPoint start stop steps 0 = start := by
  simp [gridPoint]

theorem gridPoint_last (hsteps : steps ≠ 0) (start stop : ℚ) :
    gridPoint start stop steps steps = stop := by
  have hne : (steps : ℚ) ≠ 0 := Nat.cast_ne_zero.mpr hsteps
  rw [gridPoint, mul_div_cancel_left₀ _ hne]
  ring

theorem strictMono_gridPoint (hlt : start < stop) (hsteps : steps ≠ 0) :
    StrictMono (gridPoint start stop steps) := by
  intro i j hij
  have hpositive : (0 : ℚ) < steps := Nat.cast_pos.mpr (Nat.pos_of_ne_zero hsteps)
  have hextent : 0 < stop - start := sub_pos.mpr hlt
  have hcast : (i : ℚ) < j := Nat.cast_lt.mpr hij
  unfold gridPoint
  gcongr

theorem isEmpty_exact : (⟨start, stop, steps⟩ : Grid Exact).isEmpty = true ↔ stop ≤ start := by
  rw [Grid.isEmpty, Bool.or_eq_true, Exact.less_finite, Exact.same_finite, le_iff_lt_or_eq]

theorem greater_exact (p : ℚ) (x : Exact) :
    (∃ q : ℚ, greater (p : Exact) x = q) ∨ greater (p : Exact) x = .infinity false := by
  cases x with
  | finite q =>
    left
    rw [greater]
    split
    · exact ⟨p, rfl⟩
    · exact ⟨q, rfl⟩
  | infinity negative =>
    cases negative with
    | false => exact Or.inr rfl
    | true => exact Or.inl ⟨p, rfl⟩
  | notANumber => exact Or.inl ⟨p, rfl⟩

theorem lesser_exact (p : ℚ) (x : Exact) :
    (∃ q : ℚ, lesser (p : Exact) x = q) ∨ lesser (p : Exact) x = .infinity true := by
  cases x with
  | finite q =>
    left
    rw [lesser]
    split
    · exact ⟨p, rfl⟩
    · exact ⟨q, rfl⟩
  | infinity negative =>
    cases negative with
    | false => exact Or.inl ⟨p, rfl⟩
    | true => exact Or.inr rfl
  | notANumber => exact Or.inl ⟨p, rfl⟩

/-- A scan of an interval between rational numbers stays between rational numbers, whatever the
candidates and the margin around them are. -/
theorem exists_scanGrid_eq {min max : ℚ} (candidates : List Exact) (hmin : options.min = min)
    (hmax : options.max = max) :
    ∃ (start stop : ℚ) (steps : Nat), scanGrid candidates options = ⟨start, stop, steps⟩ := by
  have hfull : options.fullGrid = ⟨min, max, options.steps⟩ := by
    rw [ScanOptions.fullGrid, hmin, hmax]
  unfold scanGrid
  split
  · exact ⟨min, max, _, hfull⟩
  · next lowest highest _ =>
    simp only
    split
    · exact ⟨min, max, _, hfull⟩
    · next hnarrow =>
      simp only [Bool.or_eq_true, not_or, Bool.not_eq_true] at hnarrow
      obtain ⟨⟨-, hextent⟩, -⟩ := hnarrow
      simp only [ScanOptions.narrowGrid, hmin, hmax] at hextent ⊢
      obtain ⟨start, hstart⟩ | hstart :=
        greater_exact min (Scalar.floor (lowest - options.margin))
      · obtain ⟨stop, hstop⟩ | hstop := lesser_exact max (Scalar.ceil (highest + options.margin))
        · exact ⟨start, stop, options.narrowSteps, by rw [hstart, hstop]⟩
        · rw [hstart, hstop] at hextent
          cases hextent
      · obtain ⟨stop, hstop⟩ | hstop := lesser_exact max (Scalar.ceil (highest + options.margin))
        · rw [hstart, hstop] at hextent
          cases hextent
        · rw [hstart, hstop] at hextent
          cases hextent

/-! ## One cell -/

/-- Where a point comes from that a cell contributes. -/
def FromCell (f : Exact → Exact) (low high q : ℚ) : Prop :=
  q = low ∧ f low = (0 : ℚ) ∨ q = high ∧ f high = (0 : ℚ) ∨
    OppositeSigns f low high ∧ low < q ∧ q < high

theorem FromCell.between (h : FromCell f low high q) (hlt : low < high) : low ≤ q ∧ q ≤ high := by
  obtain ⟨rfl, -⟩ | ⟨rfl, -⟩ | ⟨-, hlow, hhigh⟩ := h
  · exact ⟨le_rfl, hlt.le⟩
  · exact ⟨hlt.le, le_rfl⟩
  · exact ⟨hlow.le, hhigh.le⟩

theorem cellRoot?_of_separates {α : Type} [Scalar α] {f : α → Option α} {low high : α}
    (limits : BisectionLimits α) (h : Separates f low high) :
    cellRoot? f limits low high = bisect f low high limits := by
  obtain ⟨y, z, hlow, hhigh, hy, hz, hne⟩ := h
  rw [cellRoot?, hlow, hhigh]
  simp only [hy, hz, Bool.false_eq_true, if_false]
  exact if_pos (bne_iff_ne.mpr hne)

theorem bisect_between_of_lt (hlt : low < high) (h : bisect (finitePart f) low high limits = some x) :
    ∃ q : ℚ, x = q ∧ low < q ∧ q < high := by
  obtain ⟨q, rfl, hlow, hhigh⟩ := bisect_between h
  rw [min_eq_left hlt.le] at hlow
  rw [max_eq_right hlt.le] at hhigh
  exact ⟨q, rfl, hlow, hhigh⟩

theorem fromCell_of_cellRoot? (hlt : low < high)
    (h : cellRoot? (finitePart f) limits low high = some x) : ∃ q : ℚ, x = q ∧ FromCell f low high q := by
  by_cases hsep : OppositeSigns f low high
  · rw [cellRoot?_of_separates limits (separates_iff_exact.mpr hsep)] at h
    obtain ⟨q, rfl, hlow, hhigh⟩ := bisect_between_of_lt hlt h
    exact ⟨q, rfl, Or.inr (Or.inr ⟨hsep, hlow, hhigh⟩)⟩
  · have hzero {p : ℚ} {y : Exact} (hp : finitePart f p = some y) (hy : isZero y = true) :
        f p = (0 : ℚ) := by
      obtain ⟨r, hr, rfl⟩ := finitePart_eq_some_iff_exact.mp hp
      rw [hr, Exact.isZero_finite.mp hy]
    unfold cellRoot? at h
    split at h
    · next y z hy hz =>
      split at h
      · next hvanishes =>
        obtain rfl := Option.some.inj h
        exact ⟨low, rfl, Or.inl ⟨rfl, hzero hy hvanishes⟩⟩
      · split at h
        · next hvanishes =>
          obtain rfl := Option.some.inj h
          exact ⟨high, rfl, Or.inr (Or.inl ⟨rfl, hzero hz hvanishes⟩)⟩
        · split at h
          · rw [bisect_of_not_separates (mt separates_iff_exact.mp hsep)] at h
            cases h
          · cases h
    · cases h

/-- A cell with a sign change contributes a root, unless halving meets a gap. -/
theorem exists_cellRoot?_between (hlt : low < high) (hsep : OppositeSigns f low high)
    (hgap : ¬ MeetsGap (finitePart f) limits low high) :
    ∃ q : ℚ, cellRoot? (finitePart f) limits low high = some (q : Exact) ∧ low < q ∧ q < high := by
  rw [cellRoot?_of_separates limits (separates_iff_exact.mpr hsep)]
  have hne : bisect (finitePart f) low high limits ≠ none := by
    rw [ne_eq, bisect_eq_none_iff, separates_iff_exact, not_or]
    exact ⟨not_not_intro hsep, hgap⟩
  obtain ⟨x, hx⟩ := Option.ne_none_iff_exists'.mp hne
  obtain ⟨q, rfl, hlow, hhigh⟩ := bisect_between_of_lt hlt hx
  exact ⟨q, hx, hlow, hhigh⟩

/-! ## All cells -/

theorem addRoot_exact (roots : List ℚ) (q : ℚ) :
    addRoot (roots.map Exact.finite) (some (q : Exact)) =
      (if q ∈ roots then roots else roots ++ [q]).map Exact.finite := by
  have hmem : (roots.map Exact.finite).any (same · (q : Exact)) = true ↔ q ∈ roots := by
    simp only [List.any_map, List.any_eq_true, Function.comp_apply, Exact.same_finite, exists_eq_right]
  rw [addRoot]
  by_cases hq : q ∈ roots
  · rw [if_pos (hmem.mpr hq), if_pos hq]
  · rw [if_neg (mt hmem.mp hq), if_neg hq, List.map_append]
    rfl

/-- Cells between rising points, each of which contributes a point inside it or nothing, contribute a
rising list. -/
theorem exists_rising_roots {cell : Nat → Option Exact} {point : Nat → ℚ} (hmono : Monotone point)
    (n : Nat) (hcell : ∀ i < n, ∀ x, cell i = some x →
      ∃ q : ℚ, x = q ∧ point i ≤ q ∧ q ≤ point (i + 1)) :
    ∃ roots : List ℚ,
      (List.range n).foldl (fun roots i => addRoot roots (cell i)) [] = roots.map Exact.finite ∧
      roots.Pairwise (· < ·) ∧ ∀ q : ℚ, q ∈ roots ↔ ∃ i < n, cell i = some (q : Exact) := by
  induction n with
  | zero => exact ⟨[], rfl, List.Pairwise.nil, by simp⟩
  | succ n ih =>
    obtain ⟨roots, hfold, hrising, hmem⟩ := ih fun i hi => hcell i (Nat.lt_succ_of_lt hi)
    have hsucc (q : ℚ) : (∃ i < n + 1, cell i = some (q : Exact)) ↔
        q ∈ roots ∨ cell n = some (q : Exact) := by
      rw [hmem, Nat.exists_lt_succ_right]
    rw [List.range_succ, List.foldl_append, hfold, List.foldl_cons, List.foldl_nil]
    cases hn : cell n with
    | none =>
      refine ⟨roots, rfl, hrising, fun q => ?_⟩
      rw [hsucc, hn]
      simp
    | some x =>
      obtain ⟨q, rfl, hlow, -⟩ := hcell n (Nat.lt_succ_self n) x hn
      refine ⟨_, addRoot_exact roots q, ?_, fun p => ?_⟩
      · split
        · exact hrising
        · next hnew =>
          refine List.pairwise_append.mpr ⟨hrising, List.pairwise_singleton _ _, fun p hp r hr => ?_⟩
          -- What was found before lies at or before the left end of this cell.
          obtain rfl := List.mem_singleton.mp hr
          obtain ⟨i, hi, hp'⟩ := (hmem p).mp hp
          obtain ⟨p', hpp', -, hhigh⟩ := hcell i (Nat.lt_succ_of_lt hi) p hp'
          obtain rfl := Exact.finite.inj hpp'
          exact lt_of_le_of_ne ((hhigh.trans (hmono hi)).trans hlow) fun heq => hnew (heq ▸ hp)
      · rw [hsucc, hn, Option.some.injEq, Exact.finite.injEq]
        split
        · next hold => exact ⟨Or.inl, fun h => h.elim id fun heq => heq ▸ hold⟩
        · rw [List.mem_append, List.mem_singleton, eq_comm (a := p)]

/-! ## The roots -/

/-- What holds of the roots that a scan of a grid lists. -/
structure ScannedRoots (f : Exact → Exact) (limits : BisectionLimits Exact) (start stop : ℚ)
    (steps : Nat) (roots : List ℚ) : Prop where
  /-- The roots rise, and so none is listed twice. -/
  rising : roots.Pairwise (· < ·)
  within : ∀ r ∈ roots, start ≤ r ∧ r ≤ stop
  /-- A root is a sample with a residual of zero, or stands between two samples with a sign change. -/
  arises : ∀ r ∈ roots,
    (∃ i ≤ steps, r = gridPoint start stop steps i ∧ f r = (0 : ℚ)) ∨
      ∃ i < steps, OppositeSigns f (gridPoint start stop steps i) (gridPoint start stop steps (i + 1)) ∧
        gridPoint start stop steps i < r ∧ r < gridPoint start stop steps (i + 1)
  /-- Two samples with a sign change have exactly one root between them if every midpoint that halving
  visits has a residual. An interval without extent is not sampled. -/
  found : start < stop → ∀ i < steps,
    OppositeSigns f (gridPoint start stop steps i) (gridPoint start stop steps (i + 1)) →
    ¬ MeetsGap (finitePart f) limits (gridPoint start stop steps i) (gridPoint start stop steps (i + 1)) →
    ∃! r, r ∈ roots ∧ gridPoint start stop steps i < r ∧ r < gridPoint start stop steps (i + 1)

theorem scannedRoots_nil (h : ¬ start < stop ∨ steps = 0) :
    ScannedRoots f limits start stop steps [] where
  rising := List.Pairwise.nil
  within := by simp
  arises := by simp
  found := by
    intro hlt i hi
    obtain hle | rfl := h
    · exact absurd hlt hle
    · exact absurd hi (Nat.not_lt_zero i)

theorem scannedRoots_of_mem_iff {roots : List ℚ} (hlt : start < stop) (hsteps : steps ≠ 0)
    (hrising : roots.Pairwise (· < ·))
    (hmem : ∀ q : ℚ, q ∈ roots ↔ ∃ i < steps, cellRoot? (finitePart f) limits
      (gridPoint start stop steps i) (gridPoint start stop steps (i + 1)) = some (q : Exact)) :
    ScannedRoots f limits start stop steps roots := by
  have hmono := strictMono_gridPoint hlt hsteps
  have hfrom {r : ℚ} (hr : r ∈ roots) : ∃ i < steps,
      FromCell f (gridPoint start stop steps i) (gridPoint start stop steps (i + 1)) r := by
    obtain ⟨i, hi, hcell⟩ := (hmem r).mp hr
    obtain ⟨q, hq, hcell⟩ := fromCell_of_cellRoot? (hmono (Nat.lt_succ_self i)) hcell
    obtain rfl := Exact.finite.inj hq
    exact ⟨i, hi, hcell⟩
  refine ⟨hrising, fun r hr => ?_, fun r hr => ?_, fun _ i hi hsign hgap => ?_⟩
  · obtain ⟨i, hi, hcell⟩ := hfrom hr
    obtain ⟨hlow, hhigh⟩ := hcell.between (hmono (Nat.lt_succ_self i))
    have hfirst := hmono.monotone (Nat.zero_le i)
    have hlast := hmono.monotone (Nat.succ_le_of_lt hi)
    rw [gridPoint_zero] at hfirst
    rw [gridPoint_last hsteps] at hlast
    exact ⟨hfirst.trans hlow, hhigh.trans hlast⟩
  · obtain ⟨i, hi, ⟨rfl, hzero⟩ | ⟨rfl, hzero⟩ | hinside⟩ := hfrom hr
    · exact Or.inl ⟨i, hi.le, rfl, hzero⟩
    · exact Or.inl ⟨i + 1, hi, rfl, hzero⟩
    · exact Or.inr ⟨i, hi, hinside⟩
  · obtain ⟨q, hq, hlow, hhigh⟩ := exists_cellRoot?_between (hmono (Nat.lt_succ_self i)) hsign hgap
    refine ⟨q, ⟨(hmem q).mpr ⟨i, hi, hq⟩, hlow, hhigh⟩, fun r ⟨hr, hrlow, hrhigh⟩ => ?_⟩
    -- Another root between the two samples would have to come from the same cell.
    obtain ⟨j, hj, hcell⟩ := (hmem r).mp hr
    obtain ⟨r', hr', hfrom⟩ := fromCell_of_cellRoot? (hmono (Nat.lt_succ_self j)) hcell
    obtain rfl := Exact.finite.inj hr'
    obtain ⟨hjlow, hjhigh⟩ := hfrom.between (hmono (Nat.lt_succ_self j))
    have hji := hmono.lt_iff_lt.mp (hjlow.trans_lt hrhigh)
    have hij := hmono.lt_iff_lt.mp (hrlow.trans_le hjhigh)
    obtain rfl : j = i := by omega
    exact Exact.finite.inj (Option.some.inj (hcell.symm.trans hq))

theorem exists_gridRoots_eq (f : Exact → Exact) (limits : BisectionLimits Exact) (start stop : ℚ)
    (steps : Nat) :
    ∃ roots : List ℚ,
      gridRoots (finitePart f) limits ⟨start, stop, steps⟩ = roots.map Exact.finite ∧
      ScannedRoots f limits start stop steps roots := by
  rw [gridRoots]
  by_cases hlt : start < stop
  · rw [if_neg (mt isEmpty_exact.mp hlt.not_ge)]
    by_cases hsteps : steps = 0
    · subst hsteps
      exact ⟨[], rfl, scannedRoots_nil (Or.inr rfl)⟩
    · have hmono := strictMono_gridPoint hlt hsteps
      obtain ⟨roots, hfold, hrising, hmem⟩ := exists_rising_roots hmono.monotone steps
        fun i _ x hx => by
          obtain ⟨q, rfl, hcell⟩ := fromCell_of_cellRoot? (hmono (Nat.lt_succ_self i)) hx
          exact ⟨q, rfl, hcell.between (hmono (Nat.lt_succ_self i))⟩
      simp only [sample_exact hsteps]
      exact ⟨roots, hfold, scannedRoots_of_mem_iff hlt hsteps hrising hmem⟩
  · rw [if_pos (isEmpty_exact.mpr (not_lt.mp hlt))]
    exact ⟨[], rfl, scannedRoots_nil (Or.inl hlt)⟩

/-- The roots that a scan finds rise and lie in the interval that is scanned. Each is a sample where the
residual is zero or stands strictly between two neighbouring samples with a sign change, and every such
pair of samples has exactly one root between it, unless halving meets a midpoint without a residual. -/
theorem scan_exact (f : Exact → Exact) (candidates : List Exact) (options : ScanOptions Exact)
    (min max : ℚ) (hmin : options.min = min) (hmax : options.max = max) :
    ∃ (start stop : ℚ) (steps : Nat) (roots : List ℚ),
      scanGrid candidates options = ⟨start, stop, steps⟩ ∧
      scan (finitePart f) candidates options = roots.map Exact.finite ∧
      ScannedRoots f options.bisection start stop steps roots := by
  obtain ⟨start, stop, steps, hgrid⟩ := exists_scanGrid_eq candidates hmin hmax
  obtain ⟨roots, hroots, hscanned⟩ := exists_gridRoots_eq f options.bisection start stop steps
  exact ⟨start, stop, steps, roots, hgrid, by rw [scan, hgrid, hroots], hscanned⟩

/-- A scan from minus two to two in four steps. -/
def scanToTwo : ScanOptions Exact :=
  ⟨.finite (-2), .finite 2, 4, 200, .finite 50, ⟨.finite (1 / 10000000), 30⟩⟩

/-- A candidate that is infinite does not narrow the interval. -/
theorem scan_exact_square :
    scanToTwo.min = (-2 : ℚ) ∧ scanToTwo.max = (2 : ℚ) ∧ ∃ roots : List ℚ,
      scan (finitePart fun x : Exact => x * x - .finite 2) [.infinity false] scanToTwo =
        roots.map Exact.finite ∧
      ScannedRoots (fun x => x * x - .finite 2) scanToTwo.bisection (-2) 2 4 roots := by
  have hfull : scanGrid [.infinity false] scanToTwo = ⟨(-2 : ℚ), (2 : ℚ), 4⟩ := by rfl
  obtain ⟨start, stop, steps, roots, hgrid, hscan, hscanned⟩ :=
    scan_exact (fun x => x * x - .finite 2) [.infinity false] scanToTwo (-2) 2 rfl rfl
  rw [hfull, Grid.mk.injEq, Exact.finite.injEq, Exact.finite.injEq] at hgrid
  obtain ⟨rfl, rfl, rfl⟩ := hgrid
  exact ⟨rfl, rfl, roots, hscan, hscanned⟩

end AnswerCheck.Search
