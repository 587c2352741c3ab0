import StoredObjects.ObjectType.Index
import StoredObjects.Replica

/-!
The tables of a replica: its loaders and its bindings, each under the name of its type.

A declaration hands its type over to the index. What is left of it, its name with its collection and
its converter, is wired again with the type that the index has under that name.
-/

namespace StoredObjects

namespace Replica

structure Tables (Object : Type) where
  loaders : TextMap (Load.Loader Object) := .empty
  bindings : TextMap (Binding Object) := .empty

namespace Tables

variable {Object : Type}

/-- Wires a declaration, of which only the name of its type is used. -/
def wire (index : Index) (settings : Settings) (tables : Tables Object) (b : Binding Object) :
    Except Halt (Tables Object) := do
  let name := b.type.name
  let type ← index.get name
  let wired : Binding Object := { b with type }
  return { loaders := tables.loaders.insert name ⟨wired, settings.load, settings.partition⟩
           bindings := tables.bindings.insert type.name wired }

def ofBindings (settings : Settings) (bindings : List (Binding Object)) :
    Except Halt (Tables Object) := do
  let index ← Index.ofList (bindings.map Binding.type)
  bindings.foldlM (wire index settings) {}

end Tables

end Replica

end StoredObjects
