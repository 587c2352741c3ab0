import StoredObjects.Json.Inspect
import StoredObjects.Query

/-!
Conversion between objects and documents.

The identity property of an object is stored as the identity of its document, and every other
property under its own name. The version of a document has no counterpart in the object.
-/

namespace StoredObjects

structure Codec (Object : Type) where
  write : Object → Value
  read : Value → Except String Object

namespace Codec

def value : Codec Value := ⟨id, .ok⟩

end Codec

/-- A conversion in both directions; making an object may end the task that does it. -/
structure Converter (Object : Type) where
  toDocument : Object → Except Failure Document
  toObject : Document → Except Halt Object
  /-- The form in which documents hold a loose value, such as an identity. -/
  toStored : Value → Except Failure Value := .ok
  /-- The query for the documents of objects like a template; its null properties match anything. -/
  toQuery : Object → Except Failure Query := fun template =>
    (toDocument template).map Query.ofTemplate

namespace Converter

variable {Object : Type}

def moveField (source target : String) (d : Document) : Document :=
  if source = target then d
  else match d.get? source with
    | some v => (d.erase source).insert target v
    | none => d

def document (codec : Codec Object) (identity : String) (object : Object) :
    Except Failure Document :=
  (Document.ofValue (codec.write object)).map (moveField identity Document.identityField)

def properties (identity : String) (d : Document) : Document :=
  moveField Document.identityField identity (d.erase Document.versionField)

def object (codec : Codec Object) (identity : String) (d : Document) : Except Halt Object :=
  match codec.read (properties identity d).toValue with
  | .ok o => .ok o
  | .error why =>
    let shown := Inspect.optional d.identity?
    .error (.failed (.conversionFailed s!"document {shown}: {why}"))

/-- The conversion that stores the property `identity` as the identity. -/
def ofCodec (codec : Codec Object) (identity : String) : Converter Object where
  toDocument := document codec identity
  toObject := object codec identity

end Converter

end StoredObjects
