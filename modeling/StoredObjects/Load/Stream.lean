import StoredObjects.Load.Loader

/-!
Lazy loads: a feeder takes documents from a reading, tasks convert them, and a reader takes the
objects from a bounded queue.

The feeder gives a document to a task while there are workers, and converts it itself otherwise. A
task holds its worker until its work is done or it dies, and the feeder sees only later that it
died. The first failure is kept and stops the feeder; the reader meets it in place of an object, and
again whenever it asks. Which part moves next is not fixed: `Stream.next?` says what each can do,
and `Stream.pull` lets them all move until the reader has an answer. No store is written to.
-/

namespace StoredObjects

namespace Load

inductive Task (Object : Type) where
  | converting (raw : Document)
  /-- The object waits for a place in the queue. -/
  | delivering (object : Object)
  /-- The work is done, and the worker is not free yet. -/
  | leaving
  /-- The worker is free, and the feeder cannot see yet that the task died. -/
  | dying
  | ended
  | died

namespace Task

variable {Object : Type}

/-- The task has a worker. -/
def isLive : Task Object → Bool
  | converting _ | delivering _ | leaving => true
  | dying | ended | died => false

/-- The feeder can see that the task is over. -/
def isOver : Task Object → Bool
  | ended | died => true
  | converting _ | delivering _ | leaving | dying => false

def hasDied : Task Object → Bool
  | died => true
  | _ => false

def left? : Task Object → Option (Task Object)
  | leaving => some ended
  | dying => some died
  | _ => none

end Task

inductive Feeder (Object : Type) where
  /-- Waits for the next item of the reading. -/
  | reading
  /-- Converts a document itself. -/
  | working (task : Task Object)
  /-- Looks after the tasks that are over, before it reads on. -/
  | collecting
  /-- Waits for its tasks, after the last item. -/
  | finishing
  | ended
  | died

structure Stream (Object : Type) where
  step : Step Object
  workers : Nat
  capacity : Nat
  /-- What is still to be read. -/
  reading : List (Item Document)
  feeder : Feeder Object := .reading
  tasks : List (Task Object) := []
  queue : List Object := []
  failure : Option Failure := none
  /-- The object that the reader has seen and not taken. -/
  peeked : Option Object := none
  /-- The reader found no failure and waits for the queue. -/
  waiting : Bool := false

namespace Stream

variable {Object : Type}

inductive Event where
  /-- The feeder takes the next item of the reading. -/
  | read
  /-- The feeder goes on with a document of its own. -/
  | work
  /-- The feeder looks after its tasks. -/
  | collect
  /-- The task at a place goes on. -/
  | task (i : Nat)
  /-- The task at a place comes to its end. -/
  | leave (i : Nat)
  /-- The task at a place is given up, since its feeder died. -/
  | abort (i : Nat)
  /-- The reader looks for failures again. -/
  | wake
  deriving DecidableEq, Repr

variable (s : Stream Object)

def record (e : Failure) : Stream Object := { s with failure := s.failure.or (some e) }

def advance? : Task Object → Option (Stream Object × Task Object)
  | .converting raw =>
    match s.step.process raw with
    | .ok (some loaded) => some (s, .delivering loaded.object)
    | .ok none => some (s, .leaving)
    | .error (.failed e) => some (s.record e, .leaving)
    | .error .died => some (s, .dying)
  | .delivering object =>
    if s.queue.length < s.capacity then some ({ s with queue := s.queue ++ [object] }, .leaving)
    else none
  | .leaving | .dying | .ended | .died => none

def live : Nat := s.tasks.countP Task.isLive

/-- Gives a document to a task, or to the feeder when no worker is free. -/
def accept (raw : Document) : Stream Object :=
  if s.live < s.workers then
    { s with tasks := s.tasks ++ [.converting raw], feeder := .collecting }
  else { s with feeder := .working (.converting raw) }

def read? : Option (Stream Object) :=
  match s.reading with
  | [] => some { s with feeder := .finishing }
  | .stalled :: _ => none
  | .failed e :: rest => some { s.record e with reading := rest, feeder := .finishing }
  | .value raw :: rest =>
    let s := { s with reading := rest }
    if s.failure.isSome then some { s with feeder := .finishing } else some (s.accept raw)

/-- The feeder after a document of its own; its death takes the tasks along. -/
def feederAfter : Task Object → Feeder Object
  | .leaving | .ended => .collecting
  | .dying | .died => .died
  | task => .working task

/-- Forgets the tasks that are over. That one died is a failure. -/
def collected : Stream Object :=
  let rest := { s with tasks := s.tasks.filter fun task => !task.isOver }
  if s.tasks.any Task.hasDied then rest.record .workerDied else rest

def next? : Event → Option (Stream Object)
  | .read =>
    match s.feeder with
    | .reading => s.read?
    | _ => none
  | .work =>
    match s.feeder with
    | .working task => (s.advance? task).map fun (s, task) => { s with feeder := feederAfter task }
    | _ => none
  | .collect =>
    match s.feeder with
    | .collecting => some { s.collected with feeder := .reading }
    | .finishing =>
      if s.tasks.isEmpty then some { s with feeder := .ended }
      else if s.tasks.any Task.isOver then some s.collected
      else none
    | _ => none
  | .task i =>
    match s.tasks[i]? with
    | some task => (s.advance? task).map fun (s, task) => { s with tasks := s.tasks.set i task }
    | none => none
  | .leave i =>
    (s.tasks[i]?.bind Task.left?).map fun task => { s with tasks := s.tasks.set i task }
  | .abort i =>
    match s.feeder, s.tasks[i]? with
    | .died, some task =>
      if task.isLive then some { s with tasks := s.tasks.set i .ended } else none
    | _, _ => none
  | .wake => if s.waiting then some { s with waiting := false } else none

/-! ## The reader -/

def isClosed : Bool :=
  match s.feeder with
  | .ended | .died => s.live == 0
  | _ => false

/-- Whether an object is there; no answer yet when the reader has to wait. -/
def hasNext : Stream Object × Option (Except Failure Bool) :=
  if s.peeked.isSome then (s, some (.ok true))
  else
    match s.waiting, s.failure with
    | false, some e => (s, some (.error e))
    | _, _ =>
      match s.queue with
      | object :: rest =>
        ({ s with queue := rest, peeked := some object, waiting := false }, some (.ok true))
      | [] =>
        if s.isClosed then
          ({ s with waiting := false },
            some (match s.failure with
              | some e => .error e
              | none => .ok false))
        else ({ s with waiting := true }, none)

def next : Stream Object × Option (Except Failure (Option Object)) :=
  match s.hasNext with
  | (s, none) => (s, none)
  | (s, some (.error e)) => (s, some (.error e))
  | (s, some (.ok false)) => (s, some (.ok none))
  | (s, some (.ok true)) => ({ s with peeked := none }, some (.ok s.peeked))

/-! ## Reading to the end -/

/-- The moves of the parts: the feeder goes ahead of its tasks, but not of their ends, and takes
them along when it dies; the reader looks again when nothing else moves. -/
def moves : List Event :=
  (List.range s.tasks.length).map Event.abort ++ (List.range s.tasks.length).map Event.leave ++
    [.work, .collect, .read] ++ (List.range s.tasks.length).map Event.task ++ [.wake]

def pullWithin : Nat → Stream Object → Stream Object × Option (Except Failure (Option Object))
  | 0, s => s.next
  | n + 1, s =>
    match s.next with
    | (s, some answer) => (s, some answer)
    | (s, none) =>
      match s.moves.findSome? s.next? with
      | some s => pullWithin n s
      | none => (s, none)

def patience : Nat := 8 * (s.reading.length + s.tasks.length + 2)

def pull : Stream Object × Option (Except Failure (Option Object)) := pullWithin s.patience s

def drainWithin : Nat → Stream Object → Stream Object × List (Item Object)
  | 0, s => (s, [])
  | n + 1, s =>
    match s.pull with
    | (s, some (.ok (some object))) =>
      let (s, items) := drainWithin n s
      (s, .value object :: items)
    | (s, some (.ok none)) => (s, [])
    | (s, some (.error e)) => (s, [.failed e])
    | (s, none) => (s, [.stalled])

def drain : Stream Object × List (Item Object) :=
  drainWithin (s.reading.length + s.tasks.length + s.queue.length + 3) s

end Stream

def Loader.lazyRun {Object : Type} (l : Loader Object) (filter : Routing.Filter Object) :
    Program (Stream Object) := do
  let idle : Stream Object :=
    { step := l.step filter, reading := []
      workers := max l.settings.workers 1, capacity := max l.settings.outputCapacity 1 }
  match ← l.openSource filter with
  | .ok reading => return { idle with reading }
  | .error e => return { idle with failure := some e, feeder := .ended }

def Loader.stream {Object : Type} (l : Loader Object) : Program (Stream Object) :=
  l.lazyRun l.filter

end Load

end StoredObjects
