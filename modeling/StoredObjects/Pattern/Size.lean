import StoredObjects.Pattern.Basic

/-!
The size of patterns, as the room that an automaton for them takes.

Counted repetitions repeat their part in the automaton, so that a short pattern can ask for much
room. The measure is an estimate; it is meant to tell patterns of use from those that only take up
room.
-/

namespace StoredObjects

/-- The room for one character out of a set, in bytes. Sets of characters outside ASCII are held as
the sequences of their bytes. -/
def CharSet.room : CharSet → Nat
  | range _ last => if last < 128 then 80 else 200
  | caseless c => if c < 128 then 90 else 300
  | digit => 5000
  | word => 45000
  | blank => 700
  | category .. | script _ => 20000
  | alphabetic => 40000
  | union s t => s.room + t.room
  | inter s t => min s.room t.room
  | compl s => s.room + 500
  | folded s => s.room

namespace Pattern

def room : Pattern → Nat
  | empty | anchor _ => 32
  | char s => s.room
  | seq p q => p.room + q.room
  | either p q => p.room + q.room + 32
  | many p least none => max least 1 * p.room + 32
  | many p _ (some most) => most * (p.room + 32)

def largest : Nat := 10 * 1024 * 1024

end Pattern

end StoredObjects
