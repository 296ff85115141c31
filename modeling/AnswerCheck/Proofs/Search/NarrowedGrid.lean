import AnswerCheck.Answer.Verification
import AnswerCheck.Proofs.Decimal.RoundedOrder

/-! # The grid around candidates

The grid reaches from the least to the greatest candidate and by the margin beyond both, and is rounded
outwards and cut off at the ends of the whole interval. So it covers every candidate in the interval:
none of the operations on the way is rounded past a candidate. What is not a number is passed over.
-/

set_option autoImplicit false

namespace AnswerCheck.Search

open Binary64 Decimal

/-! ## The least and the greatest candidate -/

/-- The operation picks one of two numbers, and that one bears the relation to both. -/
structure Picks (pick : Float → Float → Float) (r : Float → Float → Prop) : Prop where
  either {a b : Float} (ha : a.isNaN = false) (hb : b.isNaN = false) : pick a b = a ∨ pick a b = b
  left {a b : Float} (ha : a.isNaN = false) (hb : b.isNaN = false) : r (pick a b) a
  right {a b : Float} (ha : a.isNaN = false) (hb : b.isNaN = false) : r (pick a b) b

variable {a b c : Float}

theorem lesser_eq (ha : a.isNaN = false) (hb : b.isNaN = false) : lesser a b = if b < a then b else a := by
  have hlesser : lesser a b = if !a.isNaN && !decide (b < a) then a else if !b.isNaN then b else a := rfl
  rw [hlesser, ha, hb]
  by_cases h : b < a <;> simp [h]

theorem greater_eq (ha : a.isNaN = false) (hb : b.isNaN = false) : greater a b = if a < b then b else a := by
  have hgreater : greater a b = if !a.isNaN && !decide (a < b) then a else if !b.isNaN then b else a := rfl
  rw [hgreater, ha, hb]
  by_cases h : a < b <;> simp [h]

theorem le_of_lt (h : a < b) : a ≤ b := by
  obtain ⟨ha, hb⟩ := isNaN_of_lt h
  rw [lt_iff ha hb] at h
  exact (le_iff ha hb).mpr h.le

theorem le_of_not_lt (ha : a.isNaN = false) (hb : b.isNaN = false) (h : ¬ b < a) : a ≤ b := by
  rw [lt_iff hb ha] at h
  exact (le_iff ha hb).mpr (not_lt.mp h)

theorem picks_lesser : Picks lesser (· ≤ ·) where
  either ha hb := by
    rw [lesser_eq ha hb]
    split
    · exact Or.inr rfl
    · exact Or.inl rfl
  left {a b} ha hb := by
    rw [lesser_eq ha hb]
    split
    · next h => exact le_of_lt h
    · exact Binary64.le_refl ha
  right {a b} ha hb := by
    rw [lesser_eq ha hb]
    split
    · exact Binary64.le_refl hb
    · next h => exact le_of_not_lt ha hb h

theorem picks_greater : Picks greater (· ≥ ·) where
  either ha hb := by
    rw [greater_eq ha hb]
    split
    · exact Or.inr rfl
    · exact Or.inl rfl
  left {a b} ha hb := by
    rw [greater_eq ha hb]
    split
    · next h => exact le_of_lt h
    · exact Binary64.le_refl ha
  right {a b} ha hb := by
    rw [greater_eq ha hb]
    split
    · exact Binary64.le_refl hb
    · next h => exact le_of_not_lt hb ha h

/-- Picking along a list gives one of its elements, which bears the relation to all of them. -/
theorem Picks.foldl {pick : Float → Float → Float} {r : Float → Float → Prop} (h : Picks pick r)
    (hrefl : ∀ {a}, a.isNaN = false → r a a) (htrans : ∀ {a b c}, r a b → r b c → r a c)
    {first : Float} {rest : List Float} (hnumbers : ∀ x ∈ first :: rest, x.isNaN = false) :
    rest.foldl pick first ∈ first :: rest ∧ ∀ x ∈ first :: rest, r (rest.foldl pick first) x := by
  induction rest generalizing first with
  | nil =>
    rw [List.foldl_nil]
    exact ⟨List.mem_singleton_self first, fun x hx => by
      rw [List.mem_singleton.mp hx]
      exact hrefl (hnumbers first (List.mem_singleton_self first))⟩
  | cons second rest ih =>
    have hfirst : first.isNaN = false := hnumbers first (by simp)
    have hsecond : second.isNaN = false := hnumbers second (by simp)
    have hpicked : pick first second ∈ [first, second] := by
      obtain h | h := h.either hfirst hsecond <;> simp [h]
    have hnext : ∀ x ∈ pick first second :: rest, x.isNaN = false := by
      intro x hx
      obtain rfl | hx := List.mem_cons.mp hx
      · obtain h | h := List.mem_cons.mp hpicked
        · rwa [h]
        · rwa [List.mem_singleton.mp h]
      · exact hnumbers x (by simp [hx])
    obtain ⟨hmem, hall⟩ := ih hnext
    have hrun := hall (pick first second) (by simp)
    rw [List.foldl_cons]
    constructor
    · obtain h | h := List.mem_cons.mp hmem
      · rw [h]
        exact List.mem_append_left rest hpicked
      · exact List.mem_cons_of_mem first (List.mem_cons_of_mem second h)
    · intro x hx
      obtain rfl | hx := List.mem_cons.mp hx
      · exact htrans hrun (h.left hfirst hsecond)
      · obtain rfl | hx := List.mem_cons.mp hx
        · exact htrans hrun (h.right hfirst hsecond)
        · exact hall x (List.mem_cons_of_mem _ hx)

variable {candidates : List Float} {lowest highest : Float}

/-- The least and the greatest of the candidates that are numbers. -/
structure Extremes (candidates : List Float) (lowest highest : Float) : Prop where
  lowest_mem : lowest ∈ candidates
  highest_mem : highest ∈ candidates
  between {c : Float} (hmem : c ∈ candidates) (hc : c.isNaN = false) : lowest ≤ c ∧ c ≤ highest

theorem mem_numbers {c : Float} :
    c ∈ candidates.filter Scalar.isNumber ↔ c ∈ candidates ∧ c.isNaN = false := by
  rw [List.mem_filter]
  change c ∈ candidates ∧ (!c.isNaN) = true ↔ _
  rw [Bool.not_eq_true']

theorem extremes?_eq_none_iff : extremes? candidates = none ↔ ∀ c ∈ candidates, c.isNaN = true := by
  have hnone : extremes? candidates = none ↔ candidates.filter Scalar.isNumber = [] := by
    unfold extremes?
    split <;> simp [*]
  rw [hnone, List.filter_eq_nil_iff]
  refine forall₂_congr fun c _ => ?_
  change ¬ (!c.isNaN) = true ↔ _
  simp

theorem extremes_of_eq_some (h : extremes? candidates = some (lowest, highest)) :
    Extremes candidates lowest highest := by
  unfold extremes? at h
  split at h
  · cases h
  · next first rest hnumbers =>
    have hmem {c : Float} : c ∈ first :: rest ↔ c ∈ candidates ∧ c.isNaN = false := by
      rw [← hnumbers]
      exact mem_numbers
    have hall : ∀ c ∈ first :: rest, c.isNaN = false := fun c hc => (hmem.mp hc).2
    obtain ⟨hlowest, hleast⟩ := picks_lesser.foldl Binary64.le_refl Binary64.le_trans hall
    obtain ⟨hhighest, hgreatest⟩ :=
      picks_greater.foldl Binary64.le_refl (fun hab hbc => Binary64.le_trans hbc hab) hall
    cases h
    exact ⟨(hmem.mp hlowest).1, (hmem.mp hhighest).1,
      fun hc hnumber => ⟨hleast _ (hmem.mpr ⟨hc, hnumber⟩), hgreatest _ (hmem.mpr ⟨hc, hnumber⟩)⟩⟩

/-! ## The interval around the candidates -/

section Around

variable {options : ScanOptions Float}

/-- The grid is within the whole interval and reaches every point of it that lies between the extremes. -/
structure Covers (options : ScanOptions Float) (lowest highest : Float) (g : Grid Float) : Prop where
  min_le : options.min ≤ g.start
  le_max : g.stop ≤ options.max
  start_le {c : Float} (hlowest : lowest ≤ c) (hc : options.min ≤ c) : g.start ≤ c
  le_stop {c : Float} (hhighest : c ≤ highest) (hc : c ≤ options.max) : c ≤ g.stop

theorem toRat_nonneg (ha : a.isFinite = true) (h : 0 ≤ a) : 0 ≤ toRat a :=
  (le_iff_toRat (by rfl) ha).mp h

theorem narrowGrid_covers (hmin : options.min.isFinite = true) (hmax : options.max.isFinite = true)
    (hmargin : options.margin.isFinite = true) (hnonneg : 0 ≤ options.margin)
    (hlowest : lowest.isFinite = true) (hhighest : highest.isFinite = true) :
    Covers options lowest highest (options.narrowGrid lowest highest) := by
  have hreach : 0 ≤ toRat options.margin := toRat_nonneg hmargin hnonneg
  have hbelow : lowest - options.margin ≤ lowest := (Rounded.sub hlowest hmargin).le hlowest (by linarith)
  have habove : highest ≤ highest + options.margin := (Rounded.add hhighest hmargin).ge hhighest (by linarith)
  have hfloor := roundDown_le (isNaN_of_le hbelow).1
  have hceil := le_roundUp (isNaN_of_le habove).2
  have hmin' := isNaN_of_isFinite hmin
  have hmax' := isNaN_of_isFinite hmax
  have hfloor' := (isNaN_of_le hfloor).1
  have hceil' := (isNaN_of_le hceil).2
  refine ⟨picks_greater.left hmin' hfloor', picks_lesser.left hmax' hceil', fun {c} hc hcmin => ?_,
    fun {c} hc hcmax => ?_⟩
  · change greater options.min (roundDown (lowest - options.margin)) ≤ c
    obtain h | h := picks_greater.either hmin' hfloor'
    · rwa [h]
    · rw [h]
      exact Binary64.le_trans hfloor (Binary64.le_trans hbelow hc)
  · change c ≤ lesser options.max (roundUp (highest + options.margin))
    obtain h | h := picks_lesser.either hmax' hceil'
    · rwa [h]
    · rw [h]
      exact Binary64.le_trans (Binary64.le_trans hc habove) hceil

theorem isEmpty_eq_false_iff {g : Grid Float} (hstart : g.start.isNaN = false)
    (hstop : g.stop.isNaN = false) : g.isEmpty = false ↔ g.start < g.stop := by
  have hless : less g.stop g.start = true ↔ g.stop < g.start := decide_eq_true_iff
  have hsame : same g.stop g.start = true ↔ place (unpacked g.stop) = place (unpacked g.start) :=
    beq_iff hstop hstart
  rw [Grid.isEmpty, Bool.eq_false_iff, Ne, Bool.or_eq_true, hless, hsame, lt_iff hstop hstart,
    lt_iff hstart hstop]
  omega

theorem isFinite_of_between (ha : a.isFinite = true) (hb : b.isFinite = true) (hac : a ≤ c) (hcb : c ≤ b) :
    c.isFinite = true := by
  have ha' := isNaN_of_isFinite ha
  have hb' := isNaN_of_isFinite hb
  have hc' := (isNaN_of_le hac).2
  rw [isFinite_iff_place ha'] at ha
  rw [isFinite_iff_place hb'] at hb
  rw [le_iff ha' hc'] at hac
  rw [le_iff hc' hb'] at hcb
  rw [isFinite_iff_place hc']
  omega

/-- Without numbers among the candidates, with an infinite one or without steps the grid is the full one. -/
theorem scanGrid_eq_fullGrid
    (h : (∀ c ∈ candidates, c.isNaN = true) ∨ (∃ c ∈ candidates, c.isInf = true) ∨ options.narrowSteps = 0) :
    scanGrid candidates options = options.fullGrid := by
  unfold scanGrid
  split
  · rfl
  · next lowest highest hextremes =>
    have hbetween := extremes_of_eq_some hextremes
    refine if_pos ?_
    obtain hnan | ⟨c, hc, hinf⟩ | hzero := h
    · rw [extremes?_eq_none_iff.mpr hnan] at hextremes
      cases hextremes
    · obtain ⟨hlow, hhigh⟩ := hbetween.between hc (isNaN_of_isInf hinf)
      have hends : ¬ (lowest.isFinite = true ∧ highest.isFinite = true) := by
        rintro ⟨hl, hh⟩
        have hfinite := isFinite_of_between hl hh hlow hhigh
        exact Bool.eq_false_iff.mp (isFinite_iff.mp hfinite).2 hinf
      change (!lowest.isFinite || !highest.isFinite || _ || _) = true
      cases hl : lowest.isFinite <;> cases hh : highest.isFinite <;> simp_all
    · simp [hzero]

/-- With finite extremes and with steps only an empty interval makes it the full one. -/
theorem scanGrid_eq_ite (hextremes : extremes? candidates = some (lowest, highest))
    (hlowest : lowest.isFinite = true) (hhighest : highest.isFinite = true)
    (hsteps : options.narrowSteps ≠ 0) :
    scanGrid candidates options =
      if (options.narrowGrid lowest highest).isEmpty then options.fullGrid
      else options.narrowGrid lowest highest := by
  have hl : Scalar.isFinite lowest = true := hlowest
  have hh : Scalar.isFinite highest = true := hhighest
  rw [scanGrid, hextremes]
  simp [hl, hh, hsteps]

/-- The grid is the full one if no candidate is a number, if one is infinite, if there are no steps or
if nothing is left of the interval around the candidates that are numbers. Otherwise it is a part of
the full one, not empty, that reaches every candidate in the full one. -/
theorem scanGrid_around_candidates (candidates : List Float) (options : ScanOptions Float)
    (hmin : options.min.isFinite = true) (hmax : options.max.isFinite = true)
    (hmargin : options.margin.isFinite = true) (hnonneg : 0 ≤ options.margin) :
    ((∀ c ∈ candidates, c.isNaN = true) ∨ (∃ c ∈ candidates, c.isInf = true) ∨ options.narrowSteps = 0 →
      scanGrid candidates options = options.fullGrid) ∧
    ((∃ c ∈ candidates, c.isNaN = false) → (∀ c ∈ candidates, c.isInf = false) → options.narrowSteps ≠ 0 →
      ∃ lowest ∈ candidates, ∃ highest ∈ candidates,
        (∀ c ∈ candidates, c.isNaN = false → lowest ≤ c ∧ c ≤ highest) ∧
        let narrow := options.narrowGrid lowest highest
        (¬ narrow.start < narrow.stop → scanGrid candidates options = options.fullGrid) ∧
        (narrow.start < narrow.stop →
          scanGrid candidates options = ⟨narrow.start, narrow.stop, options.narrowSteps⟩ ∧
          options.min ≤ narrow.start ∧ narrow.stop ≤ options.max ∧
          ∀ c ∈ candidates, options.min ≤ c → c ≤ options.max → narrow.start ≤ c ∧ c ≤ narrow.stop)) := by
  refine ⟨scanGrid_eq_fullGrid, fun ⟨number, hmem, hnumber⟩ hinf hsteps => ?_⟩
  obtain ⟨⟨lowest, highest⟩, hextremes⟩ : ∃ ends, extremes? candidates = some ends := by
    rw [← Option.ne_none_iff_exists']
    intro hnone
    rw [extremes?_eq_none_iff.mp hnone number hmem] at hnumber
    cases hnumber
  have hbetween := extremes_of_eq_some hextremes
  obtain ⟨hlow, hhigh⟩ := hbetween.between hmem hnumber
  have hlowest := isFinite_iff.mpr ⟨(isNaN_of_le hlow).1, hinf _ hbetween.lowest_mem⟩
  have hhighest := isFinite_iff.mpr ⟨(isNaN_of_le hhigh).2, hinf _ hbetween.highest_mem⟩
  have hcovers := narrowGrid_covers hmin hmax hmargin hnonneg hlowest hhighest
  have hextent := isEmpty_eq_false_iff (isNaN_of_le hcovers.min_le).2 (isNaN_of_le hcovers.le_max).1
  have hgrid := scanGrid_eq_ite hextremes hlowest hhighest hsteps
  refine ⟨lowest, hbetween.lowest_mem, highest, hbetween.highest_mem, fun c => hbetween.between,
    fun hempty => ?_, fun hlt => ⟨?_, hcovers.min_le, hcovers.le_max, fun c hc hcmin hcmax => ?_⟩⟩
  · rw [hgrid, if_pos]
    exact Bool.of_not_eq_false fun h => hempty (hextent.mp h)
  · rw [hgrid, if_neg (Bool.eq_false_iff.mp (hextent.mpr hlt))]
    rfl
  · obtain ⟨hl, hh⟩ := hbetween.between hc (isNaN_of_le hcmin).2
    exact ⟨hcovers.start_le hl hcmin, hcovers.le_stop hh hcmax⟩

/-- Among what is not a number, a number in the interval and one beyond it. -/
theorem scanGrid_around_candidates_beyond :
    let options := Answer.VerifyOptions.standard.scan
    let candidates : List Float := [0 / 0, 1.5, 300]
    (options.min.isFinite = true ∧ options.max.isFinite = true ∧ options.margin.isFinite = true ∧
      0 ≤ options.margin ∧ 1.5 ∈ candidates ∧ (∀ c ∈ candidates, c.isInf = false) ∧ options.narrowSteps ≠ 0) ∧
    ∃ lowest ∈ candidates, ∃ highest ∈ candidates,
      (∀ c ∈ candidates, c.isNaN = false → lowest ≤ c ∧ c ≤ highest) ∧
      let narrow := options.narrowGrid lowest highest
      (¬ narrow.start < narrow.stop → scanGrid candidates options = options.fullGrid) ∧
      (narrow.start < narrow.stop →
        scanGrid candidates options = ⟨narrow.start, narrow.stop, options.narrowSteps⟩ ∧
        options.min ≤ narrow.start ∧ narrow.stop ≤ options.max ∧
        ∀ c ∈ candidates, options.min ≤ c → c ≤ options.max → narrow.start ≤ c ∧ c ≤ narrow.stop) := by
  intro options candidates
  have hmem : 1.5 ∈ candidates := by simp [candidates]
  have hinf : ∀ c ∈ candidates, c.isInf = false := by decide +kernel
  have hsteps : options.narrowSteps ≠ 0 := by decide
  have hmin : options.min.isFinite = true := by decide +kernel
  have hmax : options.max.isFinite = true := by decide +kernel
  have hmargin : options.margin.isFinite = true := by decide +kernel
  have hnonneg : 0 ≤ options.margin := by decide +kernel
  exact ⟨⟨hmin, hmax, hmargin, hnonneg, hmem, hinf, hsteps⟩,
    (scanGrid_around_candidates candidates options hmin hmax hmargin hnonneg).2
      ⟨1.5, hmem, by decide +kernel⟩ hinf hsteps⟩

/-- A candidate that is not finite need not make the grid the full one: what is not a number is passed
over, and the grid is narrowed to the surroundings of the others. -/
theorem not_a_number_passed_over :
    let options := Answer.VerifyOptions.standard.scan
    let candidates : List Float := [0 / 0, 1.5]
    options.min.isFinite = true ∧ options.max.isFinite = true ∧ options.margin.isFinite = true ∧
    0 ≤ options.margin ∧ (∃ c ∈ candidates, c.isFinite = false) ∧
    (scanGrid candidates options).start = -49 ∧ (scanGrid candidates options).stop = 52 ∧
    (scanGrid candidates options).steps = 200 ∧ scanGrid candidates options ≠ options.fullGrid := by
  intro options candidates
  have hsteps : (scanGrid candidates options).steps = 200 := by decide +kernel
  have hfull : options.fullGrid.steps = 400 := rfl
  refine ⟨by decide +kernel, by decide +kernel, by decide +kernel, by decide +kernel, by decide +kernel,
    by decide +kernel, by decide +kernel, hsteps, fun h => ?_⟩
  rw [h, hfull] at hsteps
  cases hsteps

end Around

end AnswerCheck.Search
