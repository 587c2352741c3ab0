import StoredObjects.Decimal.Binary64
import StoredObjects.TextMap

/-!
JSON values: numbers are integers or binary64 numbers, and the fields of an object stand in
ascending order of their names.

Two values are the `same` when they have one structure, the same numbers of the same kind and the
same text at the leaves. An integer is never the same as a binary64 number; the two binary64 zeros
are the same although they are written differently.
-/

namespace StoredObjects

inductive Number where
  | int (i : Int)
  | float (x : Binary64)
  deriving DecidableEq

def Number.same : Number → Number → Bool
  | .int i, .int j => i == j
  | .float x, .float y => x.same y
  | _, _ => false

inductive Value where
  | null
  | bool (b : Bool)
  | number (n : Number)
  | text (s : String)
  | array (items : List Value)
  | object (fields : List (String × Value))

namespace Value

instance : Inhabited Value := ⟨null⟩

def ofInt (i : Int) : Value := number (.int i)

def ofNat (n : Nat) : Value := number (.int n)

def ofMap (fields : TextMap Value) : Value := object fields.entries

/-- The object with the listed fields; of two fields with one name the later counts. -/
def ofFields (fields : List (String × Value)) : Value := ofMap (TextMap.ofList fields)

def isNull : Value → Bool
  | null => true
  | _ => false

mutual

def same : Value → Value → Bool
  | null, null => true
  | bool a, bool b => a == b
  | number a, number b => a.same b
  | text a, text b => a == b
  | array a, array b => sameItems a b
  | object a, object b => sameFields a b
  | _, _ => false

def sameItems : List Value → List Value → Bool
  | [], [] => true
  | a :: as, b :: bs => same a b && sameItems as bs
  | _, _ => false

def sameFields : List (String × Value) → List (String × Value) → Bool
  | [], [] => true
  | (k, a) :: as, (l, b) :: bs => k == l && same a b && sameFields as bs
  | _, _ => false

end

instance : BEq Value := ⟨same⟩

end Value

end StoredObjects
