import StoredObjects.Document

/-!
Routing keys: the field whose value decides to which partition a document belongs.

The identity is routed on its leading segment: identities such as `A1^2024^7` are composed with a
caret, and all identities with one head belong together.
-/

namespace StoredObjects

namespace Routing

structure Key where
  field : String
  deriving DecidableEq, Repr

namespace Key

def identity : Key := ⟨Document.identityField⟩

def isIdentity (key : Key) : Bool := key.field == Document.identityField

def delimiter : Char := '^'

def head (s : String) : String := String.ofList (s.toList.takeWhile fun c => c != delimiter)

/-- The routing value of a document; a null field is no routing value. -/
def value? (key : Key) (d : Document) : Option Value :=
  match d.get? key.field with
  | none => none
  | some .null => none
  | some (.text s) => some (.text (if key.isIdentity then head s else s))
  | some v => some v

end Key

end Routing

end StoredObjects
