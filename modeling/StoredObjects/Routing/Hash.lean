import StoredObjects.Json.Compact

/-!
The hash by which values are spread over partitions: 32-bit words, computed alike by every host.

The hash of text is the polynomial of its UTF-16 units in 31, modulo `2^32`, read as a signed word.
-/

namespace StoredObjects

namespace Routing

def charUnits (c : Char) : List Nat :=
  if c.toNat < 0x10000 then [c.toNat]
  else [0xd800 + (c.toNat - 0x10000) / 0x400, 0xdc00 + (c.toNat - 0x10000) % 0x400]

def units (s : String) : List Nat := s.toList.flatMap charUnits

def textHash (s : String) : Int32 :=
  (units s).foldl (fun hash u => hash * 31 + Int32.ofNat u) 0

def wordHash (w : UInt64) : Int32 := (w ^^^ (w >>> 32)).toUInt32.toInt32

def numberHash : Number → Int32
  | .int i =>
    if -0x80000000 ≤ i ∧ i < 0x80000000 then Int32.ofInt i else wordHash (UInt64.ofInt i)
  | .float x => wordHash x.bits

/-- The hash of a value; arrays and objects are hashed by their compact text. -/
def hash : Value → Int32
  | .null => 0
  | .bool true => 1231
  | .bool false => 1237
  | .number n => numberHash n
  | .text s => textHash s
  | .array items => textHash (Value.array items).compact
  | .object fields => textHash (Value.object fields).compact

/-- The absolute value of a hash, where that of the smallest word is taken to be the largest word.
-/
def magnitude (h : Int32) : Nat := min h.toInt.natAbs 0x7fffffff

def partitionOf (h : Int32) (count : Nat) : Nat :=
  if count = 0 then 0 else magnitude h % count + 1

end Routing

end StoredObjects
