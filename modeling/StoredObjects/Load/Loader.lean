import StoredObjects.Load.Pool
import StoredObjects.Settings
import StoredObjects.Store.Program

/-!
Loaders: the objects of one type, read from its store.

A load converts everything that it reads before it writes any upgraded document back. It therefore
changes nothing when a single document fails; when a write fails, the writes before it have
happened.
-/

namespace StoredObjects

namespace Load

structure Report where
  typeName : String
  read : Nat
  loaded : Nat
  /-- Documents that were read and not wanted. -/
  filtered : Nat
  /-- Documents that were not in the current shape. -/
  patched : Nat
  writtenBack : Nat
  deriving DecidableEq, Repr

structure Result (Object : Type) where
  objects : List Object
  report : Report

structure Loader (Object : Type) where
  binding : Binding Object
  settings : Settings.Load
  partition : Option Routing.Partition

namespace Loader

variable {Object : Type} (l : Loader Object)

def type : ObjectType := l.binding.type

def filter : Routing.Filter Object :=
  match l.partition with
  | some p => .share ⟨l.type.routing, p⟩
  | none => .acceptAll

def step (filter : Routing.Filter Object) : Step Object := ⟨l.type, l.binding.converter, filter⟩

def failure : Interruption → Failure
  | .failed e => e
  | .died => .workerDied
  | .stalled => .timeout
      s!"loading '{l.type.name}' did not finish within {l.settings.awaitTermination}ms"

/-- Begins to read what a filter can want. The selection of a partition is left to the store if the
type says so. -/
def openSource (filter : Routing.Filter Object) : Program (Except Failure (List (Item Document))) :=
  match filter.share?, l.type.routed with
  | some share, true => .perform l.binding.store (.findShare share)
  | _, _ => .perform l.binding.store .findAll

def openReading : Program (Except Failure (List (Item Document))) := l.openSource l.filter

/-- Writes upgraded documents in place of the stored ones, up to the first that fails. -/
def writeBack (store : String) : List Upgrade → Program (Except Failure Unit)
  | [] => .done (.ok ())
  | u :: rest => .call store (.replace u.old u.new) fun
    | .ok () => writeBack store rest
    | .error e => .done (.error e)

def reportOf (o : Outcome Object) : Report where
  typeName := l.type.name
  read := o.read
  loaded := o.objects.length
  filtered := o.read - o.objects.length
  patched := o.upgrades.length
  writtenBack := o.upgrades.length

def loadReading (schedule : Schedule) (filter : Routing.Filter Object)
    (reading : List (Item Document)) : Program (Except Interruption (Result Object)) :=
  match convert (l.step filter) l.settings.workers schedule.converted reading with
  | .error i => .done (.error i)
  | .ok o => do
    match ← writeBack l.binding.store
        (arrange schedule.written l.settings.workers 0 o.upgrades) with
    | .ok () => return .ok ⟨o.objects, l.reportOf o⟩
    | .error e => return .error (.failed e)

def loadEagerly (schedule : Schedule) : Program (Except Interruption (Result Object)) := do
  match ← l.openReading with
  | .ok reading => l.loadReading schedule l.filter reading
  | .error e => return .error (.failed e)

def loadMatching (schedule : Schedule) (q : Query) (filter : Routing.Filter Object) :
    Program (Except Failure (Result Object)) := do
  match ← Program.perform l.binding.store (.findByQuery q) with
  | .ok reading => return (← l.loadReading schedule filter reading).mapError l.failure
  | .error e => return .error e

def loadLike (schedule : Schedule) (template : Object) :
    Program (Except Failure (Result Object)) :=
  match l.binding.converter.toQuery template with
  | .ok q => l.loadMatching schedule q l.filter
  | .error e => .done (.error e)

/-- Loads one object, in the task of the caller. Its document is written back whenever it was
upgraded; that it does not belong to this process is a failure. -/
def loadById (identity : Value) : Program (Except Halt (Option Object)) :=
  match l.binding.converter.toStored identity with
  | .error e => .done (.error (.failed e))
  | .ok stored => do
    match ← Program.perform l.binding.store (.findById stored) with
    | .error e => return .error (.failed e)
    | .ok none => return .ok none
    | .ok (some raw) =>
      match (l.step l.filter).process raw with
      | .error halt => return .error halt
      | .ok none => return .error (.failed (.illegalArgument
          s!"document {identity.compact} of '{l.type.name}' does not belong to this partition"))
      | .ok (some loaded) =>
        let written ← writeBack l.binding.store loaded.upgrade.toList
        return (written.mapError Halt.failed).map fun _ => some loaded.object

end Loader

end Load

end StoredObjects
