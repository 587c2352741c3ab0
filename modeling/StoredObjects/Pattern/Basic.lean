import StoredObjects.Pattern.CharSet

/-!
Patterns and the places in a text that they lead to.

`Pattern.reach` takes a list of places to the places at which a match that starts at one of them can
end. A text matches when some match starts anywhere in it, so that it does not matter which of
several matches a reader would prefer.
-/

namespace StoredObjects

/-- A place in a text: the characters before it, the nearest first, those after it, and how many are
before it. -/
structure Place where
  before : List Char
  after : List Char
  index : Nat

inductive Boundary where
  | between
  | within
  | start
  | finish
  | startHalf
  | finishHalf

def Boundary.holds (b : Boundary) (left right : Bool) : Bool :=
  match b with
  | between => left != right
  | within => left == right
  | start => !left && right
  | finish => left && !right
  | startHalf => !left
  | finishHalf => !right

inductive Anchor where
  | textStart
  | textEnd
  /-- After a line feed or at the start; with `crlf`, a carriage return ends a line too. -/
  | lineStart (crlf : Bool)
  | lineEnd (crlf : Bool)
  /-- Words are made of `letters`. -/
  | boundary (b : Boundary) (letters : CharSet)

namespace Anchor

def startsLine (crlf : Bool) (p : Place) : Bool :=
  match p.before with
  | [] => true
  | c :: _ => c == '\n' || (crlf && c == '\r' && p.after.head? != some '\n')

def endsLine (crlf : Bool) (p : Place) : Bool :=
  match p.after with
  | [] => true
  | c :: _ =>
    if crlf then c == '\r' || (c == '\n' && p.before.head? != some '\r') else c == '\n'

def holds (a : Anchor) (p : Place) : Bool :=
  match a with
  | textStart => p.before.isEmpty
  | textEnd => p.after.isEmpty
  | lineStart crlf => startsLine crlf p
  | lineEnd crlf => endsLine crlf p
  | boundary b letters =>
    let isWordAt (cs : List Char) : Bool := cs.head?.any fun c => letters.contains c.toNat
    b.holds (isWordAt p.before) (isWordAt p.after)

end Anchor

inductive Pattern where
  | empty
  | char (s : CharSet)
  | anchor (a : Anchor)
  | seq (p q : Pattern)
  | either (p q : Pattern)
  /-- At least `least` times and, unless that is open, at most `most` times. -/
  | many (p : Pattern) (least : Nat) (most : Option Nat)

namespace Place

def step? (s : CharSet) (p : Place) : Option Place :=
  match p.after with
  | [] => none
  | c :: rest => if s.contains c.toNat then some ⟨c :: p.before, rest, p.index + 1⟩ else none

def join (ps qs : List Place) : List Place :=
  qs.foldl (fun done q => if done.any fun p => p.index == q.index then done else q :: done) ps

def walk (before : List Char) (index : Nat) : List Char → List Place
  | [] => [⟨before, [], index⟩]
  | c :: rest => ⟨before, c :: rest, index⟩ :: walk (c :: before) (index + 1) rest

def all (cs : List Char) : List Place := walk [] 0 cs

end Place

namespace Pattern

def repeatStep (step : List Place → List Place) : Nat → List Place → List Place
  | 0, ps => ps
  | n + 1, ps => repeatStep step n (step ps)

/-- The places that up to `rounds` further steps lead to; only new places are followed. -/
def closure (step : List Place → List Place) : (rounds : Nat) → (seen new : List Place) → List Place
  | 0, seen, _ => seen
  | rounds + 1, seen, new =>
    let next := (step new).filter fun q => !seen.any fun p => p.index == q.index
    if next.isEmpty then seen else closure step rounds (Place.join seen next) next

/-- The number of steps, each over one character or more, that can be made from some place. -/
def longest (ps : List Place) : Nat := ps.foldl (fun n p => max n p.after.length) 0

def reach : Pattern → List Place → List Place
  | empty, ps => ps
  | char s, ps => ps.filterMap (Place.step? s)
  | anchor a, ps => ps.filter a.holds
  | seq p q, ps => q.reach (p.reach ps)
  | either p q, ps => Place.join (p.reach ps) (q.reach ps)
  | many p least most, ps =>
    let first := repeatStep p.reach least ps
    let rounds := match most with
      | some m => min (m - least) (longest first)
      | none => longest first
    closure p.reach rounds first first

def occursIn (p : Pattern) (text : String) : Bool := !(p.reach (Place.all text.toList)).isEmpty

def anyOf : List Pattern → Pattern
  | [] => empty
  | [p] => p
  | p :: ps => either p (anyOf ps)

def inOrder : List Pattern → Pattern
  | [] => empty
  | [p] => p
  | p :: ps => seq p (inOrder ps)

end Pattern

end StoredObjects
