import StoredObjects.Failure
import StoredObjects.Json.Compact

/-!
Documents: named values, of which two names are reserved, the identity and the version of the shape.

An identity that is absent or null is no identity. Stores key their documents by the compact text of
the identity, so that the text `"1"` and the number `1` are two identities.
-/

namespace StoredObjects

structure Document where
  fields : TextMap Value

namespace Document

def identityField : String := "_id"

def versionField : String := "_formatVersion"

protected theorem ext {d e : Document} (h : d.fields = e.fields) : d = e := by
  cases d; cases e; cases h; rfl

instance : Inhabited Document := ⟨⟨.empty⟩⟩

def empty : Document := ⟨.empty⟩

def toValue (d : Document) : Value := .ofMap d.fields

def same (d e : Document) : Bool := d.toValue.same e.toValue

instance : BEq Document := ⟨same⟩

def ofValue : Value → Except Failure Document
  | .object fields => .ok ⟨.ofList fields⟩
  | v => .error (.illegalArgument s!"document must be a JSON object, got {v.compact}")

def get? (d : Document) (field : String) : Option Value := d.fields.get? field

def contains (d : Document) (field : String) : Bool := d.fields.contains field

def insert (d : Document) (field : String) (v : Value) : Document := ⟨d.fields.insert field v⟩

def erase (d : Document) (field : String) : Document := ⟨d.fields.erase field⟩

def size (d : Document) : Nat := d.fields.size

def isEmpty (d : Document) : Bool := d.fields.isEmpty

/-- A null identity is no identity. -/
def identity? (d : Document) : Option Value := (d.get? identityField).filter fun v => !v.isNull

def setIdentity (d : Document) (v : Value) : Document := d.insert identityField v

def keyOf (identity : Value) : String := identity.compact

def key? (d : Document) : Option String := d.identity?.map keyOf

def ofIdentity (v : Value) : Document := empty.setIdentity v

def isIdentityOnly (d : Document) : Bool := d.size == 1 && d.identity?.isSome

/-- The version that a number stands for: itself when it is whole and fits 64 bits, else zero, which
no type knows. -/
def versionOf : Number → Int
  | .int i => if -0x8000000000000000 ≤ i ∧ i < 0x8000000000000000 then i else 0
  | .float x =>
    match x.toInt? with
    | some i => if -0x8000000000000000 ≤ i ∧ i < 0x8000000000000000 then i else 0
    | none => 0

/-- The version of the shape; documents without one have the first version. -/
def version (d : Document) : Int :=
  match d.get? versionField with
  | none => 1
  | some .null => 1
  | some (.number n) => versionOf n
  | some _ => 0

def setVersion (d : Document) (version : Nat) : Document :=
  d.insert versionField (.ofNat version)

def orIdentity (d : Document) (identity : String) : Document :=
  if d.identity?.isSome then d else d.setIdentity (.text identity)

@[simp] theorem get?_insert_self (d : Document) (field : String) (v : Value) :
    (d.insert field v).get? field = some v := TextMap.get?_insert_self ..

theorem get?_insert_of_ne (d : Document) {field field' : String} (v : Value) (h : field' ≠ field) :
    (d.insert field v).get? field' = d.get? field' := TextMap.get?_insert_of_ne _ _ h

@[simp] theorem get?_erase_self (d : Document) (field : String) :
    (d.erase field).get? field = none := TextMap.get?_erase_self ..

theorem get?_erase_of_ne (d : Document) {field field' : String} (h : field' ≠ field) :
    (d.erase field).get? field' = d.get? field' := TextMap.get?_erase_of_ne _ h

theorem ext_get? {d e : Document} (h : ∀ field, d.get? field = e.get? field) : d = e :=
  Document.ext (TextMap.ext_get? h)

end Document

end StoredObjects
