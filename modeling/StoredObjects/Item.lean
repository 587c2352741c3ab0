import StoredObjects.Failure

/-!
Items: what readers meet one after another, be it values or the reason why there are no more.
-/

namespace StoredObjects

universe u v

inductive Item (α : Type u) where
  | value (a : α)
  | failed (e : Failure)
  /-- Nothing comes, for ever. -/
  | stalled
  deriving Repr

/-- How a reader that stops at the first trouble is left. -/
inductive Ending where
  | complete
  | failed (e : Failure)
  | stalled
  deriving DecidableEq, Repr

namespace Item

variable {α : Type u} {β : Type v}

def readAll : List (Item α) → List α × Ending
  | [] => ([], .complete)
  | value a :: rest => let (as, ending) := readAll rest; (a :: as, ending)
  | failed e :: _ => ([], .failed e)
  | stalled :: _ => ([], .stalled)

@[simp] theorem readAll_map_value (as : List α) : readAll (as.map value) = (as, .complete) := by
  induction as with
  | nil => rfl
  | cons a as ih => simp [readAll, ih]

/-- Keeps the values that pass the test; one that cannot be decided becomes the failure to do so. -/
def keepIf (test : α → Except Failure Bool) : List (Item α) → List (Item α)
  | [] => []
  | value a :: rest =>
    match test a with
    | .ok true => value a :: keepIf test rest
    | .ok false => keepIf test rest
    | .error e => failed e :: keepIf test rest
  | item :: rest => item :: keepIf test rest

end Item

end StoredObjects
