import StoredObjects.Decimal.Shortest

/-!
The binary64 number nearest to a decimal; of two equally near ones, that with the even magnitude.
-/

namespace StoredObjects

namespace Decimal

/-- `a / b` to the nearest natural number, halves going to the even neighbour. -/
def roundDiv (a b : Nat) : Nat :=
  let q := a / b
  let r := a % b
  if 2 * r > b ∨ (2 * r = b ∧ q % 2 = 1) then q + 1 else q

/-- The bit pattern, without its sign, of `magnitude * 2^scale`. A magnitude below `2^52` belongs to
the smallest scale, whose exponent field is zero. -/
def pattern (magnitude : Nat) (scale : Int) : Nat :=
  if magnitude < 0x10000000000000 then magnitude
  else timesTwo (scale + 1075).toNat 52 + (magnitude - 0x10000000000000)

/-- The pattern nearest to `a / b`. The scale is chosen so that the magnitude has 53 bits, unless it
would fall below the smallest scale; rounding up to `2^53` carries into the exponent field. -/
def nearestPattern (a b : Nat) : Nat :=
  let scaled (scale : Int) : Nat × Nat := (timesTwo a (-scale), timesTwo b scale)
  let rough : Int := (Nat.log2 a : Int) - Nat.log2 b - 53
  let scale := if (scaled rough).1 / (scaled rough).2 < 0x20000000000000 then rough else rough + 1
  let scale := max scale (-1074)
  pattern (roundDiv (scaled scale).1 (scaled scale).2) scale

def nearest? (negative : Bool) (d : Decimal) : Option Binary64 :=
  let n := if d.digits = 0 then 0
    else nearestPattern (timesTen d.digits d.exponent) (timesTen 1 (-d.exponent))
  if n < 0x7ff0000000000000 then
    Binary64.ofBits? (UInt64.ofNat (if negative then n + 0x8000000000000000 else n))
  else none

end Decimal

end StoredObjects
