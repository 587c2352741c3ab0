import StoredObjects.Binding
import StoredObjects.Store.Program
import StoredObjects.Sync.Triage

/-!
Batches: intents, applied to the stores.

A batch becomes a list of actions, and the actions are carried out one after another. Inserts wait
until an update or a removal comes, or the batch ends; those that wait for one collection are then
written by one call. Every action that fails is judged on its own. A batch that names an unknown
type does nothing.
-/

namespace StoredObjects

namespace Sync

variable {Object : Type}

structure Report where
  inserted : Nat := 0
  insertBatches : Nat := 0
  updated : Nat := 0
  removed : Nat := 0
  skippedReloaded : Nat := 0
  skippedKeepPersistent : Nat := 0
  failedOperations : Nat := 0
  deriving DecidableEq, Repr

structure Group where
  store : String
  collection : String
  documents : List Document

/-- The groups that wait, in the order in which their collections came up. -/
abbrev Waiting := List Group

def Waiting.add (store collection : String) (d : Document) : Waiting → Waiting
  | [] => [⟨store, collection, [d]⟩]
  | g :: rest =>
    if g.collection = collection then { g with documents := g.documents ++ [d] } :: rest
    else g :: Waiting.add store collection d rest

inductive Action where
  /-- Passes over an intent whose object was just loaded. -/
  | skipReloaded
  /-- Passes over the removal of an object whose document is to stay. -/
  | skipKept
  /-- Reports an object that cannot be written. -/
  | refuse (kind : Kind) (collection : String) (documents : List Document) (e : Failure)
  | insertAll (g : Group)
  | update (store collection : String) (d : Document)
  | remove (store collection : String) (identity : Value)

namespace Action

def kind : Action → Kind
  | refuse kind .. => kind
  | update .. => .update
  | remove .. => .remove
  | skipReloaded | skipKept | insertAll _ => .insert

def collection : Action → String
  | skipReloaded | skipKept => ""
  | refuse _ collection .. | update _ collection _ | remove _ collection _ => collection
  | insertAll g => g.collection

def documents : Action → List Document
  | skipReloaded | skipKept => []
  | refuse _ _ ds _ => ds
  | insertAll g => g.documents
  | update _ _ d => [d]
  | remove _ _ identity => [.ofIdentity identity]

def count (r : Report) : Action → Report
  | skipReloaded => { r with skippedReloaded := r.skippedReloaded + 1 }
  | skipKept => { r with skippedKeepPersistent := r.skippedKeepPersistent + 1 }
  | refuse .. => r
  | insertAll g =>
    { r with inserted := r.inserted + g.documents.length, insertBatches := r.insertBatches + 1 }
  | update .. => { r with updated := r.updated + 1 }
  | remove .. => { r with removed := r.removed + 1 }

def attempt : Action → Program (Except Failure Unit)
  | skipReloaded | skipKept => .done (.ok ())
  | refuse _ _ _ e => .done (.error e)
  | insertAll g => .perform g.store (.insertAll g.documents)
  | update store _ d => .perform store (.update d)
  | remove store _ identity => .perform store (.delete (.ofIdentity identity))

end Action

def updateAction (b : Binding Object) (object : Object) : Action :=
  match b.document object with
  | .ok d => .update b.store b.collection d
  | .error e => .refuse .update b.collection [] e

def removeAction (b : Binding Object) (object : Object) : Action :=
  match b.document object with
  | .error e => .refuse .remove b.collection [] e
  | .ok d =>
    match d.identity? with
    | some identity => .remove b.store b.collection identity
    | none => .refuse .remove b.collection [d]
        (.illegalArgument s!"cannot remove '{b.type.name}' without identity")

def plan (waiting : Waiting) : List (Binding Object × Intent Object) → List Action
  | [] => waiting.map .insertAll
  | (b, i) :: rest =>
    if i.isEcho then .skipReloaded :: plan waiting rest
    else
      match i.kind with
      | .insert =>
        match b.document i.object with
        | .ok d => plan (waiting.add b.store b.collection d) rest
        | .error e => .refuse .insert b.collection [] e :: plan waiting rest
      | .update => waiting.map .insertAll ++ updateAction b i.object :: plan [] rest
      | .remove =>
        if b.type.keepOnRemove then .skipKept :: plan waiting rest
        else waiting.map .insertAll ++ removeAction b i.object :: plan [] rest

structure Progress where
  report : Report := {}
  notices : List Notice := []

/-- Carries the actions out, up to a failure that stops the batch. -/
def carryOut (t : Triage) (p : Progress) :
    List Action → Program (List Notice × Except Failure Report)
  | [] => .done (p.notices, .ok p.report)
  | a :: rest => do
    match ← a.attempt with
    | .ok () => carryOut t { p with report := a.count p.report } rest
    | .error e =>
      let (notice, verdict) := t.decide a.kind a.collection a.documents e
      let notices := p.notices ++ [notice]
      match verdict with
      | .ok () =>
        let failed := p.report.failedOperations + 1
        carryOut t ⟨{ p.report with failedOperations := failed }, notices⟩ rest
      | .error e => return (notices, .error e)

def bound (bindings : List (Binding Object)) (batch : List (Intent Object)) :
    Except Failure (List (Binding Object × Intent Object)) :=
  batch.mapM fun i =>
    match Binding.find? bindings i.typeName with
    | some b => .ok (b, i)
    | none => .error (.unknownType i.typeName)

def synchronize (bindings : List (Binding Object)) (t : Triage) (batch : List (Intent Object)) :
    Program (List Notice × Except Failure Report) :=
  match bound bindings batch with
  | .ok intents => carryOut t {} (plan [] intents)
  | .error e => .done ([], .error e)

end Sync

end StoredObjects
