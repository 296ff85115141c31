import AnswerCheck.Search.Bisection

/-! # Scanning an interval for roots

The residual is sampled on a uniform grid. A sample where it is exactly zero is a root, and a sign
change between two neighbouring samples is halved down to one. A sample without a residual affects
only the two cells that it borders. Candidates narrow the interval to their surroundings.
-/

set_option autoImplicit false

namespace AnswerCheck.Search

variable {α : Type} [Scalar α]

/-- Where and how finely to scan. -/
structure ScanOptions (α : Type) where
  min : α
  max : α
  /-- Steps over the whole interval. -/
  steps : Nat
  /-- Steps over an interval narrowed by candidates. -/
  narrowSteps : Nat
  /-- How far a narrowed interval reaches beyond the candidates. -/
  margin : α
  bisection : BisectionLimits α
deriving Repr

structure Grid (α : Type) where
  start : α
  stop : α
  steps : Nat
deriving Repr

/-! ## The grid -/

def ScanOptions.fullGrid (options : ScanOptions α) : Grid α :=
  ⟨options.min, options.max, options.steps⟩

/-- The least and the greatest of the candidates that are numbers. -/
def extremes? (candidates : List α) : Option (α × α) :=
  match candidates.filter Scalar.isNumber with
  | [] => none
  | c :: cs => some (cs.foldl lesser c, cs.foldl greater c)

/-- The grid around candidates between `lowest` and `highest`, rounded outwards to integers and kept
inside the whole interval. -/
def ScanOptions.narrowGrid (options : ScanOptions α) (lowest highest : α) : Grid α where
  start := greater options.min (Scalar.floor (lowest - options.margin))
  stop := lesser options.max (Scalar.ceil (highest + options.margin))
  steps := options.narrowSteps

/-- Whether a grid has no extent: it ends before it starts, or where it starts. -/
def Grid.isEmpty (g : Grid α) : Bool :=
  less g.stop g.start || same g.stop g.start

/-- The grid that is scanned: around the candidates, or the full one if there are none to go by or
if nothing is left of the interval around them. -/
def scanGrid (candidates : List α) (options : ScanOptions α) : Grid α :=
  match extremes? candidates with
  | none => options.fullGrid
  | some (lowest, highest) =>
    let narrow := options.narrowGrid lowest highest
    if !Scalar.isFinite lowest || !Scalar.isFinite highest || narrow.isEmpty ||
        options.narrowSteps = 0 then options.fullGrid
    else narrow

def Grid.sample (g : Grid α) (i : Nat) : α :=
  g.start + Scalar.ofNat i * (g.stop - g.start) / Scalar.ofNat g.steps

/-! ## Roots in cells -/

/-- The root that one cell of the grid contributes, from its two ends. -/
def cellRoot? (f : α → Option α) (limits : BisectionLimits α) (low high : α) : Option α :=
  match f low, f high with
  | some y, some z =>
    if isZero y then some low
    else if isZero z then some high
    else if isNegative y != isNegative z then bisect f low high limits
    else none
  | _, _ => none

/-- The roots found so far with one more at the end, unless it is among them. -/
def addRoot (roots : List α) : Option α → List α
  | none => roots
  | some root => if roots.any (same · root) then roots else roots ++ [root]

/-- The roots on a grid, in the order of discovery. -/
def gridRoots (f : α → Option α) (limits : BisectionLimits α) (g : Grid α) : List α :=
  if g.isEmpty then []
  else
    (List.range g.steps).foldl
      (fun roots i => addRoot roots (cellRoot? f limits (g.sample i) (g.sample (i + 1)))) []

/-- The roots that a scan finds, given candidates to scan around. -/
def scan (f : α → Option α) (candidates : List α) (options : ScanOptions α) : List α :=
  gridRoots f options.bisection (scanGrid candidates options)

/-! ## Candidates -/

/-- The candidates at which the magnitude of the residual is below the tolerance. -/
def accepted (f : α → Option α) (candidates : List α) (tolerance : α) : List α :=
  candidates.filter fun candidate =>
    match f candidate with
    | some y => less (Scalar.abs y) tolerance
    | none => false

end AnswerCheck.Search
