import StoredObjects.Binding

/-!
The work on one document of a load: upgrade it, make an object of it, and decide whether this
process wants it.
-/

namespace StoredObjects

namespace Load

structure Loaded (Object : Type) where
  object : Object
  upgrade : Option Upgrade

structure Step (Object : Type) where
  type : ObjectType
  converter : Converter Object
  filter : Routing.Filter Object

namespace Step

variable {Object : Type} (s : Step Object)

def conversionFailure : Failure → Failure
  | .unknownDocumentVersion t v oldest current => .unknownDocumentVersion t v oldest current
  | .conversionFailed detail => .conversionFailed detail
  | e => .conversionFailed s!"{s.type.name}: {e.message}"

def conversionHalt : Halt → Halt
  | .failed e => .failed (s.conversionFailure e)
  | .died => .died

/-- Gives nothing for a document that is not wanted. -/
def process (raw : Document) : Except Halt (Option (Loaded Object)) := do
  let (d, upgrade) ← (s.type.upgradeWithPair raw).mapError s.conversionHalt
  let object ← (s.converter.toObject d).mapError s.conversionHalt
  if ← (s.filter.accepts d object).mapError Halt.failed then
    return some ⟨object, upgrade⟩
  else return none

end Step

end Load

end StoredObjects
