import StoredObjects.Json.Shape
import StoredObjects.Routing.Partition

/-!
The settings of a program: how it loads, how it synchronizes, and which partition it serves.

Settings are written as records. Everything that a record leaves out has a default.
-/

namespace StoredObjects

namespace Settings

/-- How objects are loaded; times are in milliseconds. -/
structure Load where
  /-- Documents that are converted at a time. -/
  workers : Nat := 15
  /-- Objects that wait for the reader of a lazy load. -/
  outputCapacity : Nat := 10000
  /-- Objects that wait for the reader of a merge. -/
  mergeCapacity : Nat := 10000
  /-- The longest wait for one merged object. -/
  mergeTimeout : Nat := 300000
  /-- How often the reader of a lazy load looks again. -/
  pollInterval : Nat := 250
  /-- The longest time that an eager load may take. -/
  awaitTermination : Nat := 1800000
  deriving DecidableEq, Repr

structure Sync where
  /-- Absorbs every failure, also one that may pass. -/
  catchAll : Bool := false
  /-- Patterns of the reports of failures that may pass. -/
  transientPatterns : List String :=
    ["not master", "node is recovering", "connection refused", "connection reset", "timed out",
      "no replica set members", "socket"]
  deriving DecidableEq, Repr

end Settings

structure Settings where
  load : Settings.Load := {}
  sync : Settings.Sync := {}
  /-- The partition that the program serves; without one it serves them all. -/
  partition : Option Routing.Partition := none
  deriving DecidableEq, Repr

namespace Settings

/-- A reader never waits for less than a millisecond before it looks again. -/
def Load.pollWait (s : Load) : Nat := max s.pollInterval 1

def validate (s : Settings) : Except Failure Unit :=
  if s.load.workers = 0 then .error (.illegalArgument "load.worker_count must be >= 1")
  else if s.load.outputCapacity = 0 ∨ s.load.mergeCapacity = 0 then
    .error (.illegalArgument "queue capacities must be >= 1")
  else
    match s.partition with
    | some p => p.validate
    | none => .ok ()

/-! ## Reading and writing -/

def word32 : Value → Except Mismatch Nat := Shape.natural 0xffffffff "u32"

def word64 : Value → Except Mismatch Nat := Shape.natural 0xffffffffffffffff "u64"

def amount : Value → Except Mismatch Nat := Shape.natural 0xffffffffffffffff "usize"

def readLoad : Value → Except Mismatch Load :=
  Shape.record "LoadConfig"
    [.of "worker_count" amount fun n s => { s with workers := n },
     .of "output_queue_capacity" amount fun n s => { s with outputCapacity := n },
     .of "merge_queue_capacity" amount fun n s => { s with mergeCapacity := n },
     .of "merge_next_timeout_ms" word64 fun n s => { s with mergeTimeout := n },
     .of "poll_interval_ms" word64 fun n s => { s with pollInterval := n },
     .of "await_termination_ms" word64 fun n s => { s with awaitTermination := n }]
    {}

def writeLoad (s : Load) : Value :=
  .ofFields
    [("worker_count", .ofNat s.workers), ("output_queue_capacity", .ofNat s.outputCapacity),
     ("merge_queue_capacity", .ofNat s.mergeCapacity),
     ("merge_next_timeout_ms", .ofNat s.mergeTimeout), ("poll_interval_ms", .ofNat s.pollInterval),
     ("await_termination_ms", .ofNat s.awaitTermination)]

def readSync : Value → Except Mismatch Sync :=
  Shape.record "SyncConfig"
    [.of "catch_all" Shape.flag fun b s => { s with catchAll := b },
     .of "transient_patterns" (Shape.list Shape.text)
       fun ps s => { s with transientPatterns := ps }]
    {}

def writeSync (s : Sync) : Value :=
  .ofFields
    [("catch_all", .bool s.catchAll),
     ("transient_patterns", .array (s.transientPatterns.map Value.text))]

def readPartition : Value → Except Mismatch Routing.Partition :=
  Shape.record "ClusterPartition"
    [(Shape.Slot.of "partition_id" word32 fun n p => { p with id := n }).needed,
     (Shape.Slot.of "partition_count" word32 fun n p => { p with count := n }).needed]
    ⟨0, 0⟩

def writePartition (p : Routing.Partition) : Value :=
  .ofFields [("partition_id", .ofNat p.id), ("partition_count", .ofNat p.count)]

def read : Value → Except Mismatch Settings :=
  Shape.record "MirrorConfig"
    [.of "load" readLoad fun l s => { s with load := l },
     .of "sync" readSync fun y s => { s with sync := y },
     .of "partition" (Shape.optional readPartition) fun p s => { s with partition := p }]
    {}

def write (s : Settings) : Value :=
  .ofFields
    [("load", writeLoad s.load), ("sync", writeSync s.sync),
     ("partition", (s.partition.map writePartition).getD .null)]

end Settings

end StoredObjects
