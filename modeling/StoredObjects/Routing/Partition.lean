import StoredObjects.Json.Inspect
import StoredObjects.Routing.Hash
import StoredObjects.Routing.Key

/-!
Partitions: documents are spread over a number of processes by the hash of their routing value, and
a process serves one partition.
-/

namespace StoredObjects

namespace Routing

/-- One partition of several; they are numbered from one on. -/
structure Partition where
  id : Nat
  count : Nat
  deriving DecidableEq, Repr

def Partition.validate (p : Partition) : Except Failure Unit :=
  if p.count = 0 then .error (.illegalArgument "partition_count must be >= 1")
  else if p.id = 0 ∨ p.count < p.id then
    .error (.illegalArgument s!"partition_id {p.id} is outside [1, {p.count}]")
  else .ok ()

structure Share where
  key : Key
  partition : Partition
  deriving DecidableEq, Repr

/-- Whether a document belongs to the share; undecided without a routing value. -/
def Share.owns (share : Share) (d : Document) : Except Failure Bool :=
  match share.key.value? d with
  | some v => .ok (partitionOf (hash v) share.partition.count == share.partition.id)
  | none =>
    let identity := Inspect.optional d.identity?
    .error (.illegalArgument
      s!"document {identity} has no routing value in field '{share.key.field}'")

inductive Filter (Object : Type) where
  | acceptAll
  | share (s : Share)
  | custom (accepts : Object → Bool)

namespace Filter

variable {Object : Type}

def share? : Filter Object → Option Share
  | share s => some s
  | _ => none

def accepts (filter : Filter Object) (d : Document) (object : Object) : Except Failure Bool :=
  match filter with
  | acceptAll => .ok true
  | share s => s.owns d
  | custom accepts => .ok (accepts object)

def describe : Filter Object → String
  | acceptAll => "AcceptAll"
  | custom _ => "Custom(..)"
  | share s =>
    "Partition(DocumentPartition \x7b routing: RoutingKey \x7b field: "
      ++ Quoted.quote s.key.field
      ++ s!" \x7d, partition: ClusterPartition \x7b partition_id: {s.partition.id}"
      ++ s!", partition_count: {s.partition.count} \x7d \x7d)"

end Filter

end Routing

end StoredObjects
