import StoredObjects.ObjectType.Registry

/-!
Types that are found by their places.

An index notes the place of every type under its name and under its collection. Whoever follows a
note expects a type at that place; that there were none would end the task. A declaration is noted
under its name first, then under its collection, and then takes its place, unless it repeats a name
or a collection on the way.
-/

namespace StoredObjects

namespace ObjectType

def nameClash (t : ObjectType) : Failure :=
  .illegalArgument s!"mirrored type '{t.name}' declared twice"

def collectionClash (owner t : ObjectType) : Failure :=
  .illegalArgument s!"collection '{t.collection}' is mapped by both '{owner.name}' and '{t.name}'"

end ObjectType

structure Index where
  types : List ObjectType
  byName : TextMap Nat
  byCollection : TextMap Nat

namespace Index

def empty : Index := ⟨[], .empty, .empty⟩

variable (x : Index)

def typeAt (place : Nat) : Except Halt ObjectType :=
  match x.types[place]? with
  | some t => .ok t
  | none => .error .died

def follow (note : Option Nat) : Except Halt (Option ObjectType) :=
  match note with
  | some place => (x.typeAt place).map some
  | none => .ok none

def register (t : ObjectType) : Except Halt Index :=
  let place := x.types.length
  let named : Index := { x with byName := x.byName.insert t.name place }
  if (x.byName.get? t.name).isSome then .error (.failed t.nameClash)
  else do
    let noted : Index := { named with byCollection := named.byCollection.insert t.collection place }
    match ← noted.follow (named.byCollection.get? t.collection) with
    | some owner => .error (.failed (owner.collectionClash t))
    | none => return { noted with types := noted.types ++ [t] }

def ofList (types : List ObjectType) : Except Halt Index := types.foldlM register empty

def find? (name : String) : Except Halt (Option ObjectType) := x.follow (x.byName.get? name)

def get (name : String) : Except Halt ObjectType := do
  match ← x.find? name with
  | some t => return t
  | none => throw (.failed (.unknownType name))

def byCollection? (collection : String) : Except Halt (Option ObjectType) :=
  x.follow (x.byCollection.get? collection)

end Index

end StoredObjects
