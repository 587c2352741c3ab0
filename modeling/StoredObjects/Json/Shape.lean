import StoredObjects.Json.Inspect

/-!
Reading values of a known shape.

A record is read from an object, whose unknown fields do not matter, or from an array that lists its
slots. The fields of an object are read in the order of their names, and the first that does not fit
is reported; only then are the missing ones, in the order of the slots.
-/

namespace StoredObjects

inductive Mismatch where
  | wrongKind (found : Value) (expected : String)
  | outOfRange (found : Int) (expected : String)
  | missing (field : String)
  | wrongLength (found : Nat) (expected : String)

namespace Mismatch

def kind : Value → String
  | .null => "null"
  | .bool true => "boolean \x60true\x60"
  | .bool false => "boolean \x60false\x60"
  | .number (.int i) => s!"integer \x60{i}\x60"
  | .number (.float x) => "floating point \x60" ++ (Value.number (.float x)).compact ++ "\x60"
  | .text s => "string " ++ Quoted.quote s
  | .array _ => "sequence"
  | .object _ => "map"

def message : Mismatch → String
  | wrongKind found expected => s!"invalid type: {kind found}, expected {expected}"
  | outOfRange found expected => s!"invalid value: integer \x60{found}\x60, expected {expected}"
  | missing field => s!"missing field \x60{field}\x60"
  | wrongLength found expected => s!"invalid length {found}, expected {expected}"

end Mismatch

namespace Shape

def text : Value → Except Mismatch String
  | .text s => .ok s
  | v => .error (.wrongKind v "a string")

def flag : Value → Except Mismatch Bool
  | .bool b => .ok b
  | v => .error (.wrongKind v "a boolean")

/-- Natural numbers up to `largest`. -/
def natural (largest : Nat) (expected : String) : Value → Except Mismatch Nat
  | .number (.int i) =>
    if 0 ≤ i ∧ i ≤ largest then .ok i.toNat else .error (.outOfRange i expected)
  | v => .error (.wrongKind v expected)

def list {α : Type} (item : Value → Except Mismatch α) : Value → Except Mismatch (List α)
  | .array items => items.mapM item
  | v => .error (.wrongKind v "a sequence")

def optional {α : Type} (shape : Value → Except Mismatch α) : Value → Except Mismatch (Option α)
  | .null => .ok none
  | v => (shape v).map some

def fields : Value → Except Mismatch (List (String × Value))
  | .object fields => .ok fields
  | v => .error (.wrongKind v "a map")

/-- One slot of a record: its field, how a value is put there, and whether the field may be left out
of an object and its place off the end of an array. -/
structure Slot (α : Type) where
  field : String
  put : Value → α → Except Mismatch α
  neededInObject : Bool := false
  neededInArray : Bool := false

def Slot.of {α β : Type} (field : String) (shape : Value → Except Mismatch β) (set : β → α → α) :
    Slot α :=
  ⟨field, fun v a => (shape v).map fun b => set b a, false, false⟩

def Slot.needed {α : Type} (slot : Slot α) : Slot α :=
  { slot with neededInObject := true, neededInArray := true }

variable {α : Type}

def fill (slots : List (Slot α)) (a : α) (entry : String × Value) : Except Mismatch α :=
  match slots.find? fun slot => slot.field == entry.1 with
  | some slot => slot.put entry.2 a
  | none => .ok a

/-- Fills slots from the items of an array; `size` is the number of all slots, `place` that of the
slots filled so far. -/
def fillAll (name : String) (size : Nat) :
    (place : Nat) → List (Slot α) → List Value → α → Except Mismatch α
  | place, [], items, a =>
    if items.isEmpty then .ok a
    else .error (.wrongLength (place + items.length) "fewer elements in array")
  | place, slot :: slots, [], a =>
    if slot.neededInArray then
      let elements := if size = 1 then "element" else "elements"
      .error (.wrongLength place s!"struct {name} with {size} {elements}")
    else fillAll name size place slots [] a
  | place, slot :: slots, item :: items, a => do
    fillAll name size (place + 1) slots items (← slot.put item a)

def record (name : String) (slots : List (Slot α)) (start : α) : Value → Except Mismatch α
  | .object fields => do
    let a ← fields.foldlM (fill slots) start
    match slots.find? fun slot => slot.neededInObject && !fields.any fun e => e.1 == slot.field with
    | some slot => .error (.missing slot.field)
    | none => .ok a
  | .array items => fillAll name slots.length 0 slots items start
  | v => .error (.wrongKind v s!"struct {name}")

end Shape

end StoredObjects
