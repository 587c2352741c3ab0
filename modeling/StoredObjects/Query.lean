import StoredObjects.Document

/-!
Queries: fields and the values that they must have. A query without criteria matches every document.
-/

namespace StoredObjects

structure Query where
  criteria : TextMap Value

namespace Query

def all : Query := ⟨.empty⟩

/-- Adds a criterion; a later one for the same field takes the place of an earlier one. -/
def equal (q : Query) (field : String) (v : Value) : Query := ⟨q.criteria.insert field v⟩

def isEmpty (q : Query) : Bool := q.criteria.isEmpty

/-- The query for the documents that agree with a template; its null fields match anything. -/
def ofTemplate (template : Document) : Query := ⟨template.fields.filter fun _ v => !v.isNull⟩

def isMet (q : Query) (d : Document) : Bool :=
  q.criteria.entries.all fun c => d.get? c.1 == some c.2

end Query

end StoredObjects
