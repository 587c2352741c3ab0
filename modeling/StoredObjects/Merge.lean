import StoredObjects.Item
import StoredObjects.Settings

/-!
Merges: several sources, finite or not, read through one bounded queue.

Every source has a worker that takes its items and puts them into the queue, whatever the other
workers do. The first failure of a source is kept; it asks the workers to stop, and the reader meets
it again whenever it pulls. A worker that died is met once, when the queue is empty and no other
worker is left. Which part moves next is not fixed: `Merge.next?` says what each worker can do, and
`Merge.pull` lets them all move until the reader has an answer.
-/

namespace StoredObjects

universe u

inductive Pull (α : Type u) where
  | item (i : Item α)
  | ended
  /-- The source takes its worker down. -/
  | died

abbrev Source (α : Type u) := Nat → Pull α

variable {α : Type u}

def Source.ofItems (items : List (Item α)) : Source α :=
  let items := items.toArray
  fun n => match items[n]? with
    | some i => .item i
    | none => .ended

namespace Merge

inductive Phase where
  | running
  | ended
  /-- Died or was given up; `known` once the reader was told. -/
  | lost (known : Bool)
  deriving DecidableEq, Repr

structure Worker (α : Type u) where
  source : Source α
  /-- How often the source was asked. -/
  taken : Nat := 0
  /-- The item that waits for a place in the queue. -/
  hand : Option α := none
  phase : Phase := .running

namespace Worker

variable (w : Worker α)

def isRunning : Bool := w.phase == .running

/-- A worker that did not end by itself counts as active for ever. -/
def isActive : Bool := w.phase != .ended

def isUnknownLoss : Bool := w.phase == .lost false

def leave (phase : Phase) : Worker α := { w with hand := none, phase }

end Worker

end Merge

structure Merge (α : Type u) where
  capacity : Nat
  /-- How long a reader waits, in milliseconds. -/
  patience : Nat
  workers : List (Merge.Worker α)
  queue : List α := []
  failure : Option Failure := none
  /-- The workers are asked to stop. -/
  cancelled : Bool := false
  /-- The workers are given up. -/
  abandoned : Bool := false
  /-- The reader found no failure and waits for the queue. -/
  waiting : Bool := false

namespace Merge

def ofSources (capacity patience : Nat) (sources : List (Source α)) : Merge α where
  capacity := max capacity 1
  patience := patience
  workers := sources.map fun source => { source }

def ofSettings (s : Settings.Load) (sources : List (Source α)) : Merge α :=
  ofSources s.mergeCapacity s.mergeTimeout sources

inductive Answer (α : Type u) where
  | item (a : α)
  | ended
  | failed (e : Failure)

inductive Event where
  /-- Asks the source. -/
  | take (i : Nat)
  /-- Puts its item into the queue. -/
  | put (i : Nat)
  /-- Stops, since it was asked to. -/
  | stop (i : Nat)
  /-- Is given up. -/
  | abort (i : Nat)
  deriving DecidableEq, Repr

variable (m : Merge α)

def active : Nat := m.workers.countP Worker.isActive

def hasMore : Bool := m.active != 0 || !m.queue.isEmpty

def setWorker (i : Nat) (w : Worker α) : Merge α := { m with workers := m.workers.set i w }

/-- Keeps the first failure, and asks the workers to stop for it. -/
def record (e : Failure) : Merge α :=
  if m.failure.isSome then m else { m with failure := some e, cancelled := true }

def shutdown : Merge α := { m with cancelled := true, abandoned := true }

def take? (i : Nat) (w : Worker α) : Option (Merge α) :=
  let asked := { w with taken := w.taken + 1 }
  match w.source w.taken with
  | .item (.value a) => some (m.setWorker i { asked with hand := some a })
  | .item (.failed e) => some ((m.record e).setWorker i (asked.leave .ended))
  | .item .stalled => none
  | .ended => some (m.setWorker i (asked.leave .ended))
  | .died => some (m.setWorker i (asked.leave (.lost false)))

def move? (w : Worker α) : Event → Option (Merge α)
  | .take i => if w.hand.isNone then m.take? i w else none
  | .put i =>
    match w.hand with
    | some a =>
      if m.queue.length < m.capacity then
        some { m.setWorker i { w with hand := none } with queue := m.queue ++ [a] }
      else none
    | none => none
  | .stop i => if m.cancelled then some (m.setWorker i (w.leave .ended)) else none
  | .abort i => if m.abandoned then some (m.setWorker i (w.leave (.lost false))) else none

def Event.place : Event → Nat
  | take i | put i | stop i | abort i => i

def next? (e : Event) : Option (Merge α) :=
  match m.workers[e.place]? with
  | some w => if w.isRunning then m.move? w e else none
  | none => none

/-! ## The reader -/

def isClosed : Bool := !m.workers.any Worker.isRunning

def reported : List (Worker α) → List (Worker α)
  | [] => []
  | w :: rest =>
    if w.isUnknownLoss then { w with phase := .lost true } :: rest else w :: reported rest

/-- The end of the queue: a failure, a worker that was lost, or nothing more. -/
def atEnd : Merge α × Answer α :=
  match m.failure with
  | some e => (m, .failed e)
  | none =>
    if m.workers.any Worker.isUnknownLoss then
      ({ m with workers := reported m.workers }, .failed .workerDied)
    else (m, .ended)

def look : Merge α × Option (Answer α) :=
  match m.waiting, m.failure with
  | false, some e => (m.shutdown, some (.failed e))
  | _, _ =>
    match m.queue with
    | a :: rest => ({ m with queue := rest, waiting := false }, some (.item a))
    | [] =>
      if m.isClosed then
        let (m, answer) := m.atEnd
        ({ m with waiting := false }, some answer)
      else ({ m with waiting := true }, none)

def timeOut : Merge α × Answer α :=
  ({ m.shutdown with waiting := false },
    .failed (.timeout s!"no merged item within {m.patience}ms"))

/-! ## Reading to the end -/

def moves : List Event :=
  (List.range m.workers.length).flatMap fun i => [.abort i, .stop i, .put i, .take i]

def settleWithin : Nat → Merge α → Merge α
  | 0, m => m
  | n + 1, m =>
    match m.moves.findSome? m.next? with
    | some m => settleWithin n m
    | none => m

/-- Every place in the queue is filled once at most, and every worker takes one item more. -/
def settle : Merge α := settleWithin (2 * m.capacity + 4 * m.workers.length) m

def pull : Merge α × Answer α :=
  match m.settle.look with
  | (m, some answer) => (m, answer)
  | (m, none) => m.timeOut

def pullMany : Nat → Merge α → Merge α × List α × Answer α
  | 0, m => (m, [], .ended)
  | n + 1, m =>
    match m.pull with
    | (m, .item a) =>
      let (m, items, answer) := pullMany n m
      (m, a :: items, answer)
    | (m, answer) => (m, [], answer)

end Merge

end StoredObjects
