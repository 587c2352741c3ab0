import StoredObjects.Collection
import StoredObjects.Store.Call

/-!
Stores: collections that are reached through calls.

A store notes every call before anything else. A call that is due to fail then has no effect. A
store that does not select partitions itself is read in full, and the selection is made on what it
gives.
-/

namespace StoredObjects

structure Store where
  collection : Collection
  /-- Lets the store select the documents of a partition. -/
  selectsShares : Bool := true
  /-- The calls so far, in order. -/
  journal : List Call := []
  /-- The failures that are due: each befalls the next call of its operation. -/
  faults : List (Call.Operation × Failure) := []
  /-- What the next readings find after the stored documents, one entry for each reading. -/
  tails : List (List (Item Document)) := []
  /-- The identities for documents that have none. -/
  supply : Nat → String
  /-- How many identities were handed out. -/
  issued : Nat := 0

namespace Store

/-- Documents with identities, each that lacks one from its own place in the supply. -/
def identified (supply : Nat → String) (ds : List Document) : List Document :=
  ds.mapIdx fun i d => d.orIdentity (supply i)

variable (s : Store)

def setCollection (c : Collection) : Store := { s with collection := c }

/-- Takes over the outcome of a write; a failed write leaves everything as it was. -/
def settle (r : Except Failure Collection) : Store × Except Failure Unit :=
  match r with
  | .ok c => (s.setCollection c, .ok ())
  | .error e => (s, .error e)

/-- What a reading finds: the given documents, then the next tail. -/
def read (ds : List Document) : Store × Except Failure (List (Item Document)) :=
  ({ s with tails := s.tails.tail }, .ok (ds.map .value ++ s.tails.head?.getD []))

def insert (d : Document) : Store × Except Failure Document :=
  let d := d.orIdentity (s.supply s.issued)
  match s.collection.insert d with
  | .ok c => ({ s with collection := c, issued := s.issued + 1 }, .ok d)
  | .error e => ({ s with issued := s.issued + 1 }, .error e)

def insertAll (ds : List Document) : Store × Except Failure Unit :=
  let (c, r) := s.collection.insertAll (identified (fun i => s.supply (s.issued + i)) ds)
  ({ s with collection := c, issued := s.issued + ds.length }, r)

def effect : (c : Call) → Store × Except Failure c.Reply
  | .findAll => s.read s.collection.documents
  | .findShare share => (s, (s.collection.ownedBy share).map (·.map .value))
  | .findById identity => (s, .ok (s.collection.find? identity))
  | .findByQuery q => s.read (s.collection.select q)
  | .insert d => s.insert d
  | .insertAll ds => s.insertAll ds
  | .update d => s.settle (s.collection.update d)
  | .replace old new => s.settle (s.collection.replace old new)
  | .delete template => (s.setCollection (s.collection.delete template), .ok ())

def note (c : Call) : Store := { s with journal := s.journal ++ [c] }

def fault? (op : Call.Operation) : Option Failure :=
  (s.faults.find? fun f => f.1 == op).map Prod.snd

def clearFault (op : Call.Operation) : Store :=
  { s with faults := s.faults.eraseP fun f => f.1 == op }

def perform (c : Call) : Store × Except Failure c.Reply :=
  match s.fault? c.operation with
  | some e => ((s.note c).clearFault c.operation, .error e)
  | none => (s.note c).effect c

/-- The documents of a share, selected on what a reading of all of them gives. -/
def scanShare (share : Routing.Share) : Store × Except Failure (List (Item Document)) :=
  let (s, r) := s.perform .findAll
  (s, r.map (Item.keepIf share.owns))

def answer : (c : Call) → Store × Except Failure c.Reply
  | .findShare share => if s.selectsShares then s.perform (.findShare share) else s.scanShare share
  | c => s.perform c

end Store

end StoredObjects
