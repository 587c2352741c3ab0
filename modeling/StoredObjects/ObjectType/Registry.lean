import StoredObjects.ObjectType.Basic

/-!
The object types of a program, in the order of their declaration. No two types have one name, and no
two types have one collection.
-/

namespace StoredObjects

/-- Whether a declaration can stand behind the earlier ones. A repeated name is reported before a
repeated collection. -/
def ObjectType.joins (earlier : List ObjectType) (t : ObjectType) : Except Failure Unit :=
  if earlier.any fun s => s.name == t.name then
    .error (.illegalArgument s!"mirrored type '{t.name}' declared twice")
  else
    match earlier.find? fun s => s.collection == t.collection with
    | some s => .error (.illegalArgument
        s!"collection '{t.collection}' is mapped by both '{s.name}' and '{t.name}'")
    | none => .ok ()

structure Registry where
  types : List ObjectType

namespace Registry

def ofList (types : List ObjectType) : Except Failure Registry :=
  let register (earlier : List ObjectType) (t : ObjectType) : Except Failure (List ObjectType) :=
    (t.joins earlier).map fun _ => earlier ++ [t]
  (types.foldlM register []).map Registry.mk

variable (r : Registry)

def find? (name : String) : Option ObjectType := r.types.find? fun t => t.name == name

def get (name : String) : Except Failure ObjectType :=
  match r.find? name with
  | some t => .ok t
  | none => .error (.unknownType name)

def byCollection? (collection : String) : Option ObjectType :=
  r.types.find? fun t => t.collection == collection

def contains (name : String) : Bool := (r.find? name).isSome

def names : List String := r.types.map ObjectType.name

end Registry

end StoredObjects
