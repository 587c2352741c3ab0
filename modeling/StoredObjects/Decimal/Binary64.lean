/-!
Finite numbers of the IEEE 754 binary64 format, held as their bit patterns.

A pattern stands for `(-1)^sign * magnitude * 2^scale` with `magnitude < 2^53`, or for a zero of
either sign. Arithmetic on patterns is exact arithmetic on `magnitude` and `scale`.
-/

namespace StoredObjects

/-- The bit pattern of a finite binary64 number: its exponent field is not all ones. -/
structure Binary64 where
  bits : UInt64
  finite : bits >>> 52 &&& 0x7ff ≠ 0x7ff
  deriving DecidableEq

namespace Binary64

def ofBits? (bits : UInt64) : Option Binary64 :=
  if h : bits >>> 52 &&& 0x7ff ≠ 0x7ff then some ⟨bits, h⟩ else none

instance : Inhabited Binary64 := ⟨⟨0, by decide⟩⟩

def isNegative (x : Binary64) : Bool := x.bits >>> 63 == 1

def exponentField (x : Binary64) : Nat := (x.bits >>> 52 &&& 0x7ff).toNat

def fractionField (x : Binary64) : Nat := (x.bits &&& 0xfffffffffffff).toNat

/-- Numbers with an exponent field of zero lack the leading bit of the others. -/
def magnitude (x : Binary64) : Nat :=
  if x.exponentField = 0 then x.fractionField else x.fractionField + 0x10000000000000

def scale (x : Binary64) : Int :=
  if x.exponentField = 0 then -1074 else (x.exponentField : Int) - 1075

def isZero (x : Binary64) : Bool := x.magnitude == 0

/-- The gap to the next smaller magnitude is half the gap to the next larger one. -/
def lowerGapHalved (x : Binary64) : Bool := x.fractionField == 0 && 1 < x.exponentField

/-- Numerical equality: the two zeros are one number. -/
def same (x y : Binary64) : Bool := x.bits == y.bits || (x.isZero && y.isZero)

def toInt? (x : Binary64) : Option Int :=
  let signed (n : Nat) : Int := if x.isNegative then -(n : Int) else n
  if 0 ≤ x.scale then some (signed (x.magnitude <<< x.scale.toNat))
  else
    let unit := 1 <<< (-x.scale).toNat
    if x.magnitude % unit = 0 then some (signed (x.magnitude / unit)) else none

end Binary64

end StoredObjects
