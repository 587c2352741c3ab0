import StoredObjects.Decimal.Shortest

/-!
Written forms of a decimal: plain, with all places up to the point, or with an exponent.
-/

namespace StoredObjects

namespace Decimal

def digitChars (n : Nat) : List Char := Nat.toDigits 10 n

/-- Which decimals are written plainly: those whose leading digit stands for a power of ten between
`lowest` and `highest`. All others take an exponent. -/
structure Layout where
  lowest : Int
  highest : Int

namespace Layout

/-- Writes `digits` with the point after the first `whole` of them; a number with no places after
the point gets one zero there. -/
def plainChars (digits : List Char) (whole : Int) : List Char :=
  if whole ≤ 0 then '0' :: '.' :: List.replicate (-whole).toNat '0' ++ digits
  else if whole.toNat < digits.length then
    digits.take whole.toNat ++ '.' :: digits.drop whole.toNat
  else digits ++ List.replicate (whole.toNat - digits.length) '0' ++ ['.', '0']

def exponentChars (digits : List Char) (power : Int) : List Char :=
  let lead := match digits with
    | [] => []
    | [d] => [d]
    | d :: rest => d :: '.' :: rest
  lead ++ 'e' :: (if power < 0 then '-' else '+') :: digitChars power.natAbs

def chars (layout : Layout) (d : Decimal) : List Char :=
  let digits := digitChars d.digits
  let power := d.exponent + digits.length - 1
  if layout.lowest ≤ power ∧ power ≤ layout.highest then plainChars digits (power + 1)
  else exponentChars digits power

end Layout

end Decimal

end StoredObjects
