import StoredObjects.Load.Stream

/-!
Full loads: all objects of a type that belong to this process.

Types that write upgraded documents back are loaded at once. Of the others a load gives the means to
read them, as often as wanted, each time anew. Some types take no part in full loads.
-/

namespace StoredObjects

namespace Load

variable {Object : Type}

inductive Full (Object : Type) where
  | loaded (objects : List Object)
  /-- Every run opens a reading of its own. -/
  | lazy (start : Program (Stream Object))

namespace Loader

variable (l : Loader Object)

def loadAll (schedule : Schedule) : Program (Option Report × Except Failure (Full Object)) := do
  if l.type.excludedFromLoad then return (none, .ok (.loaded []))
  else if !l.type.writeBack then return (none, .ok (.lazy l.stream))
  else
    match ← l.loadEagerly schedule with
    | .ok r => return (some r.report, .ok (.loaded r.objects))
    | .error i => return (none, .error (l.failure i))

/-- What a full load gives to a reader who waits `patience` milliseconds for an object. Such a
reader may have gone before a load at once gives up. -/
def loadItems (schedule : Schedule) (patience : Nat) :
    Program (Option Report × List (Item Object)) := do
  if l.type.excludedFromLoad then return (none, [])
  else if !l.type.writeBack then
    let s ← l.stream
    return (none, s.drain.2)
  else
    match ← l.loadEagerly schedule with
    | .ok r => return (some r.report, r.objects.map .value)
    | .error .stalled =>
      if l.settings.awaitTermination < patience then
        return (none, [.failed (l.failure .stalled)])
      else return (none, [.stalled])
    | .error i => return (none, [.failed (l.failure i)])

end Loader

end Load

end StoredObjects
