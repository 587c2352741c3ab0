import StoredObjects.Load.Full
import StoredObjects.Merge
import StoredObjects.ObjectType.Registry
import StoredObjects.Sync.Batch

/-!
Replicas: a set of object types that is kept consistent between memory and the document stores.

A replica is built from bindings, or not at all: its types are registered under their names, and
each is bound to the collection that it names.
-/

namespace StoredObjects

structure Replica (Object : Type) where
  settings : Settings
  registry : Registry
  bindings : List (Binding Object)
  triage : Sync.Triage
  /-- What the last load of a type that wrote back came to. -/
  reports : TextMap Load.Report := .empty

namespace Replica

variable {Object : Type}

def checkBinding (b : Binding Object) : Except Failure Unit :=
  if b.type.collection = b.collection then .ok ()
  else .error (.illegalArgument
    s!"'{b.type.name}' maps to collection '{b.type.collection}' but was bound to '{b.collection}'")

/-- Checks the settings first, then the bindings, the names, and the patterns. -/
def ofBindings (settings : Settings) (bindings : List (Binding Object)) :
    Except Failure (Replica Object) := do
  settings.validate
  bindings.forM checkBinding
  let registry ← Registry.ofList (bindings.map Binding.type)
  let triage ← Sync.Triage.ofSettings settings.sync
  .ok { settings, registry, bindings, triage }

variable (r : Replica Object)

def loader (name : String) : Except Failure (Load.Loader Object) :=
  match Binding.find? r.bindings name with
  | some b => .ok ⟨b, r.settings.load, r.settings.partition⟩
  | none => .error (.unknownType name)

def note (report : Option Load.Report) : Replica Object :=
  match report with
  | some report => { r with reports := r.reports.insert report.typeName report }
  | none => r

def lastReport? (name : String) : Option Load.Report := r.reports.get? name

def loadAll (schedule : Load.Schedule) (name : String) :
    Program (Replica Object × Except Failure (Load.Full Object)) :=
  match r.loader name with
  | .error e => .done (r, .error e)
  | .ok l => do
    let (report, full) ← l.loadAll schedule
    return (r.note report, full)

def loadById (name : String) (identity : Value) : Program (Except Halt (Option Object)) :=
  match r.loader name with
  | .error e => .done (.error (.failed e))
  | .ok l => l.loadById identity

def keep (result : Except Failure (Load.Result Object)) :
    Replica Object × Except Failure (List Object) :=
  match result with
  | .ok result => (r.note result.report, .ok result.objects)
  | .error e => (r, .error e)

def loadLike (schedule : Load.Schedule) (name : String) (template : Object) :
    Program (Replica Object × Except Failure (List Object)) :=
  match r.loader name with
  | .error e => .done (r, .error e)
  | .ok l => do return r.keep (← l.loadLike schedule template)

def loadMatching (schedule : Load.Schedule) (name : String) (q : Query)
    (filter : Option (Routing.Filter Object)) :
    Program (Replica Object × Except Failure (List Object)) :=
  match r.loader name with
  | .error e => .done (r, .error e)
  | .ok l => do return r.keep (← l.loadMatching schedule q (filter.getD l.filter))

def initialLoaders : List (Load.Loader Object) :=
  (r.registry.types.filter fun t => !t.excludedFromLoad).filterMap fun t =>
    (r.loader t.name).toOption

def loadSources (schedule : Load.Schedule) (r : Replica Object) :
    List (Load.Loader Object) → Program (Replica Object × List (List (Item Object)))
  | [] => .done (r, [])
  | l :: rest => do
    let (report, items) ← l.loadItems schedule r.settings.load.mergeTimeout
    let (r, sources) ← loadSources schedule (r.note report) rest
    return (r, items :: sources)

def initialLoad (schedule : Load.Schedule) : Program (Replica Object × Merge Object) := do
  let (r, sources) ← loadSources schedule r r.initialLoaders
  return (r, .ofSettings r.settings.load (sources.map .ofItems))

def synchronize (batch : List (Sync.Intent Object)) :
    Program (List Sync.Notice × Except Failure Sync.Report) :=
  Sync.synchronize r.bindings r.triage batch

def setPolicy (policy : Sync.Policy) : Replica Object × List Sync.Notice :=
  let (triage, notices) := r.triage.setPolicy policy
  ({ r with triage }, notices)

end Replica

end StoredObjects
