import StoredObjects.Query
import StoredObjects.Routing.Partition

/-!
Collections: the documents of one name, kept in memory under the keys of their identities.

Every operation is a function from a collection to a collection. Strict inserts never touch what is
already stored; a batch of them stops at the first identity that is taken and keeps what came
before.
-/

namespace StoredObjects

structure Collection where
  name : String
  /-- The stored documents, under the keys of their identities. -/
  stored : TextMap Document

namespace Collection

def empty (name : String) : Collection := ⟨name, .empty⟩

variable (c : Collection)

/-- All documents, in ascending order of their keys. -/
def documents : List Document := c.stored.values

def size : Nat := c.stored.size

def isEmpty : Bool := c.stored.isEmpty

/-! ## Reading -/

def find? (identity : Value) : Option Document := c.stored.get? (Document.keyOf identity)

def select (q : Query) : List Document := c.documents.filter q.isMet

/-- The documents of a share; a document that cannot be decided fails the whole selection. -/
def ownedBy (share : Routing.Share) : Except Failure (List Document) :=
  c.documents.filterM share.owns

/-! ## Writing -/

def duplicate (key : String) : Failure := .duplicateDocumentKey c.name key

def keyFor (d : Document) : Except Failure String :=
  match d.key? with
  | some key => .ok key
  | none => .error (.illegalArgument s!"document without '_id' cannot be written to '{c.name}'")

def put (key : String) (d : Document) : Collection := { c with stored := c.stored.insert key d }

def drop (key : String) : Collection := { c with stored := c.stored.erase key }

def insert (d : Document) : Except Failure Collection := do
  let key ← c.keyFor d
  if c.stored.contains key then .error (c.duplicate key) else .ok (c.put key d)

/-- Adds the documents in order, up to the first that cannot be added. -/
def insertAll (c : Collection) : List Document → Collection × Except Failure Unit
  | [] => (c, .ok ())
  | d :: rest =>
    match c.insert d with
    | .ok c => c.insertAll rest
    | .error e => (c, .error e)

/-- Writes a document over the one of the same identity, or adds it. -/
def update (d : Document) : Except Failure Collection := do
  let key ← c.keyFor d
  .ok (c.put key d)

/-- Removes what equals the template in full. -/
def removeExact (template : Document) : Collection :=
  match template.key? with
  | some key => if (c.stored.get? key).any template.same then c.drop key else c
  | none => { c with stored := c.stored.filter fun _ d => !template.same d }

/-- Writes the new form of a document. Where the identity changed, the new form must find its place
free, and the old form goes if it is still stored as it was. -/
def replace (old new : Document) : Except Failure Collection := do
  let key ← c.keyFor new
  if old.key? = some key then .ok (c.put key new)
  else if c.stored.contains key then .error (c.duplicate key)
  else .ok ((c.put key new).removeExact old)

/-- Removes the document of an identity, for a template that names nothing else; for any other
template, what equals it in full. -/
def delete (template : Document) : Collection :=
  if template.isIdentityOnly then
    match template.key? with
    | some key => c.drop key
    | none => c
  else c.removeExact template

end Collection

end StoredObjects
