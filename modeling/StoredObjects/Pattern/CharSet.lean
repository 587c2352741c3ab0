import StoredObjects.Text.CaseFolding
import StoredObjects.Text.Category

/-!
Sets of characters, as patterns name them.
-/

namespace StoredObjects

inductive CharSet where
  /-- The code points from `first` to `last`. -/
  | range (first last : Nat)
  /-- The characters with the same folded form as `c`. -/
  | caseless (c : Nat)
  | digit
  | word
  | blank
  /-- A general category, or a major class of them. -/
  | category (major : Char) (minor : Option Char)
  | script (code : String)
  | alphabetic
  | union (s t : CharSet)
  | inter (s t : CharSet)
  | compl (s : CharSet)
  /-- The characters that differ from a member at most in case. -/
  | folded (s : CharSet)

namespace CharSet

def empty : CharSet := range 1 0

def all : CharSet := range 0 0x10ffff

def single (c : Char) : CharSet := range c.toNat c.toNat

def contains : CharSet → Nat → Bool
  | range first last, c => first ≤ c && c ≤ last
  | caseless x, c => CaseFolding.fold c == CaseFolding.fold x
  | digit, c => Category.isDigit (Char.ofNat c)
  | word, c => Category.isWord (Char.ofNat c)
  | blank, c => Category.isBlank (Char.ofNat c)
  | category major minor, c =>
    let k := Category.of c
    k.1 == major && minor.all fun m => k.2 == m
  | script code, c => Script.of c == code
  | alphabetic, c => Category.isAlphabetic (Char.ofNat c)
  | union s t, c => s.contains c || t.contains c
  | inter s t, c => s.contains c && t.contains c
  | compl s, c => !s.contains c
  | folded s, c => (CaseFolding.variants c).any s.contains

def diff (s t : CharSet) : CharSet := inter s (compl t)

def symmDiff (s t : CharSet) : CharSet := union (diff s t) (diff t s)

def ascii : CharSet := range 0 127

def isAscii (s : CharSet) : Bool := (List.range' 128 128).all fun c => !s.contains c

def ranges (rs : List (Nat × Nat)) : CharSet := rs.foldl (fun s r => union s (range r.1 r.2)) empty

end CharSet

end StoredObjects
