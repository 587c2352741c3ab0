import StoredObjects.Item
import StoredObjects.Query
import StoredObjects.Routing.Partition

/-!
Calls: what can be asked of a store, and the kind of reply that each call has.
-/

namespace StoredObjects

inductive Call where
  /-- All documents. -/
  | findAll
  /-- The documents of a partition, selected by the store. -/
  | findShare (share : Routing.Share)
  | findById (identity : Value)
  | findByQuery (q : Query)
  /-- Strict insert; the reply is the document with its identity. -/
  | insert (d : Document)
  /-- Strict inserts in order, up to the first that fails. -/
  | insertAll (ds : List Document)
  | update (d : Document)
  | replace (old new : Document)
  | delete (template : Document)

namespace Call

inductive Operation where
  | findAll
  | findShare
  | findById
  | findByQuery
  | insert
  | insertAll
  | update
  | replace
  | delete
  deriving DecidableEq, Repr

def operation : Call → Operation
  | findAll => .findAll
  | findShare _ => .findShare
  | findById _ => .findById
  | findByQuery _ => .findByQuery
  | insert _ => .insert
  | insertAll _ => .insertAll
  | update _ => .update
  | replace .. => .replace
  | delete _ => .delete

abbrev Reply : Call → Type
  | findAll | findShare _ | findByQuery _ => List (Item Document)
  | findById _ => Option Document
  | insert _ => Document
  | insertAll _ | update _ | replace .. | delete _ => Unit

def writes : Call → Bool
  | findAll | findShare _ | findById _ | findByQuery _ => false
  | insert _ | insertAll _ | update _ | replace .. | delete _ => true

end Call

end StoredObjects
