/-!
Intents: the changes of objects that wait to be stored.

An object that was just loaded comes back as an intent whose version is the one that the load
marked. Such an echo is already stored.
-/

namespace StoredObjects

namespace Sync

inductive Kind where
  | insert
  | update
  | remove
  deriving DecidableEq, Repr

def Kind.name : Kind → String
  | insert => "insert"
  | update => "update"
  | remove => "remove"

structure Intent (Object : Type) where
  kind : Kind
  typeName : String
  object : Object
  /-- The version of the object in memory, which is not that of the shape of its document. -/
  version : Option Nat := none
  /-- The version under which a load brought the object in. -/
  loadedVersion : Option Nat := none

variable {Object : Type}

/-- A removal is never an echo. -/
def Intent.isEcho (i : Intent Object) : Bool :=
  match i.version, i.loadedVersion with
  | some version, some loaded => i.kind != .remove && version == loaded
  | _, _ => false

theorem Intent.isEcho_iff (i : Intent Object) :
    i.isEcho = true ↔
      i.kind ≠ .remove ∧ ∃ v, i.version = some v ∧ i.loadedVersion = some v := by
  obtain ⟨kind, _, _, version, loaded⟩ := i
  cases version <;> cases loaded <;> grind [isEcho]

end Sync

end StoredObjects
