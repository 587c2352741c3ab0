import StoredObjects.Decimal.Binary64

/-!
The shortest decimal that reads back as a given binary64 number.

The reals that round to a number form an interval around it, with its ends included when the
magnitude is even. The grid of the multiples of `10^i` is tried from coarse to fine; the first grid
that has a point in the interval gives the digits. Only the two neighbours of the number on the grid
need a test: when any point lies in the interval, one of these does.
-/

namespace StoredObjects

structure Decimal where
  digits : Nat
  exponent : Int
  deriving DecidableEq, Repr

namespace Decimal

/-- Multiplies by `10^n`; a negative power of ten is left out. -/
def timesTen (a : Nat) (n : Int) : Nat := a * Nat.pow 10 n.toNat

def timesTwo (a : Nat) (n : Int) : Nat := a <<< n.toNat

def compareScaled (a : Nat) (i : Int) (b : Nat) (j : Int) : Ordering :=
  compare (timesTwo (timesTen a i) (-j)) (timesTen (timesTwo b j) (-i))

/-- Whether `c * 10^i` lies among the reals that round to `x`. The ends of that interval are the
midpoints to the neighbouring numbers, written here with a scale smaller by two. -/
def roundsTo (x : Binary64) (c : Nat) (i : Int) : Bool :=
  let below := 4 * x.magnitude - (if x.lowerGapHalved then 1 else 2)
  let above := 4 * x.magnitude + 2
  let lower := compareScaled c i below (x.scale - 2)
  let upper := compareScaled c i above (x.scale - 2)
  if x.magnitude % 2 = 0 then lower != .lt && upper != .gt else lower == .gt && upper == .lt

def floorOnGrid (x : Binary64) (i : Int) : Nat :=
  timesTen (timesTwo x.magnitude x.scale) (-i) / timesTwo (timesTen 1 i) (-x.scale)

/-- The point of the grid `10^i` that stands for `x`: the nearer of its two neighbours when both
round to it, the even one when they are equally near. -/
def pointOnGrid? (x : Binary64) (i : Int) : Option Nat :=
  let c := floorOnGrid x i
  match roundsTo x c i, roundsTo x (c + 1) i with
  | true, false => some c
  | false, true => some (c + 1)
  | false, false => none
  | true, true =>
    match compareScaled (2 * c + 1) i (2 * x.magnitude) x.scale with
    | .gt => some c
    | .lt => some (c + 1)
    | .eq => some (if c % 2 = 0 then c else c + 1)

def searchGrids (x : Binary64) : (fuel : Nat) → (i : Int) → Decimal
  | 0, i => ⟨floorOnGrid x i, i⟩
  | fuel + 1, i =>
    match pointOnGrid? x i with
    | some c => ⟨c, i⟩
    | none => searchGrids x fuel (i - 1)

/-- The finest grid that is ever needed: every binary64 magnitude is a multiple of it. -/
def exactGrid (x : Binary64) : Int := min x.scale 0

/-- A grid at least as coarse as the magnitude of `x`, which is below `2^k`: between -1074 and 1024,
`2^k` is at most ten to the power `k * 0.30103 + 1`. -/
def coarseGrid (x : Binary64) : Int :=
  (((Nat.log2 x.magnitude : Int) + x.scale + 1) * 30103).fdiv 100000 + 2

/-- The shortest decimal among those that read back as the magnitude of `x`, and of these the
nearest. -/
def shortest (x : Binary64) : Decimal :=
  if x.isZero then ⟨0, 0⟩
  else searchGrids x (coarseGrid x - exactGrid x).toNat (coarseGrid x)

end Decimal

end StoredObjects
