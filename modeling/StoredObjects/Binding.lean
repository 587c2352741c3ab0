import StoredObjects.Converter
import StoredObjects.ObjectType.Basic

/-!
Bindings: where the objects of a type are kept, and how they become documents.
-/

namespace StoredObjects

structure Binding (Object : Type) where
  type : ObjectType
  /-- The key of the store. -/
  store : String
  /-- The name of the collection in that store. -/
  collection : String
  converter : Converter Object

namespace Binding

variable {Object : Type}

/-- The document of an object, in the current shape. -/
def document (b : Binding Object) (object : Object) : Except Failure Document :=
  (b.converter.toDocument object).map fun d => d.setVersion b.type.currentVersion

/-- The binding of a type; of several the last. -/
def find? (bindings : List (Binding Object)) (name : String) : Option (Binding Object) :=
  bindings.reverse.find? fun b => b.type.name == name

end Binding

end StoredObjects
