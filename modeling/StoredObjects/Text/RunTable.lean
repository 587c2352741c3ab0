/-!
Tables that give every character a label, as runs of characters with one label.

A table is a text. Each run is written as its label, which is a capital letter and perhaps small
ones, followed by the number of its characters when that is not one. The runs follow one another
from code point zero on.
-/

namespace StoredObjects

namespace RunTable

structure Run where
  first : Nat
  count : Nat
  label : List Char

/-- Reading a table: the runs before the present one in reverse, and the present one, whose count is
zero until a digit has been read. -/
structure Cursor where
  done : List Run
  current : Run

def Cursor.complete (s : Cursor) : Run :=
  { s.current with count := if s.current.count = 0 then 1 else s.current.count }

def Cursor.read (s : Cursor) (c : Char) : Cursor :=
  if c.isUpper then
    let r := s.complete
    ⟨r :: s.done, ⟨r.first + r.count, 0, [c]⟩⟩
  else if c.isLower then { s with current := { s.current with label := s.current.label ++ [c] } }
  else { s with current := { s.current with count := s.current.count * 10 + (c.toNat - 48) } }

def read (rows : List String) : List Run :=
  match rows.flatMap String.toList with
  | [] => []
  | c :: cs =>
    let s := cs.foldl Cursor.read ⟨[], ⟨0, 0, [c]⟩⟩
    (s.complete :: s.done).reverse

def labelAt (runs : List Run) (c : Nat) : List Char :=
  match runs.find? fun r => r.first ≤ c && c < r.first + r.count with
  | some r => r.label
  | none => []

end RunTable

end StoredObjects
