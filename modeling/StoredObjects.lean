import StoredObjects.Binding
import StoredObjects.Collection
import StoredObjects.Converter
import StoredObjects.Decimal.Binary64
import StoredObjects.Decimal.Layout
import StoredObjects.Decimal.Nearest
import StoredObjects.Decimal.Shortest
import StoredObjects.Document
import StoredObjects.Failure
import StoredObjects.Item
import StoredObjects.Json.Compact
import StoredObjects.Json.Inspect
import StoredObjects.Json.Reader
import StoredObjects.Json.Shape
import StoredObjects.Json.Value
import StoredObjects.Load.Full
import StoredObjects.Load.Loader
import StoredObjects.Load.Pool
import StoredObjects.Load.Step
import StoredObjects.Load.Stream
import StoredObjects.Merge
import StoredObjects.ObjectType.Basic
import StoredObjects.ObjectType.Index
import StoredObjects.ObjectType.Registry
import StoredObjects.Patch.Chain
import StoredObjects.Pattern.Basic
import StoredObjects.Pattern.CharSet
import StoredObjects.Pattern.ClassName
import StoredObjects.Pattern.Reader
import StoredObjects.Pattern.Size
import StoredObjects.Query
import StoredObjects.Replica
import StoredObjects.Replica.Tables
import StoredObjects.Routing.Hash
import StoredObjects.Routing.Key
import StoredObjects.Routing.Partition
import StoredObjects.Settings
import StoredObjects.Store.Basic
import StoredObjects.Store.Call
import StoredObjects.Store.Program
import StoredObjects.Sync.Batch
import StoredObjects.Sync.Intent
import StoredObjects.Sync.Triage
import StoredObjects.Text.AlphabeticTable
import StoredObjects.Text.CaseFolding
import StoredObjects.Text.Category
import StoredObjects.Text.CategoryTable
import StoredObjects.Text.Quoted
import StoredObjects.Text.RunTable
import StoredObjects.Text.ScriptTable
import StoredObjects.TextMap
import StoredObjects.Proofs.Collection.Lookup
import StoredObjects.Proofs.Store.Contents
import StoredObjects.Proofs.Sync.Effect
import StoredObjects.Proofs.Sync.Retry
import StoredObjects.Proofs.Load.Conversion
import StoredObjects.Proofs.Store.Interleaving
import StoredObjects.Proofs.Sync.LostUpdate
import StoredObjects.Proofs.Collection.Keyed
import StoredObjects.Proofs.Load.Eager
import StoredObjects.Proofs.Load.Upgraded
import StoredObjects.Proofs.Routing.Ownership
import StoredObjects.Proofs.Load.Partitions
import StoredObjects.Proofs.Load.Arrangement
import StoredObjects.Proofs.Load.PushDown
import StoredObjects.Proofs.Load.Wanted
import StoredObjects.Proofs.Load.Restart
import StoredObjects.Proofs.Replica.Wiring
import StoredObjects.Proofs.Sync.Coalescing
import StoredObjects.Proofs.Sync.Blocking
import StoredObjects.Proofs.Pattern.Literal
import StoredObjects.Proofs.Sync.DataFaults
import StoredObjects.Proofs.Store.Replies
import StoredObjects.Proofs.Sync.Course
import StoredObjects.Proofs.Store.Faults
import StoredObjects.Proofs.Store.Gains
import StoredObjects.Proofs.Replica.Sessions
import StoredObjects.Proofs.Replica.Versions
import StoredObjects.Proofs.Converter.RoundTrip
import StoredObjects.Proofs.Replica.ReadBack
import StoredObjects.Proofs.Lists
import StoredObjects.Proofs.Merge.Runs
import StoredObjects.Proofs.Merge.Flow
import StoredObjects.Proofs.Merge.FirstFailure
import StoredObjects.Proofs.Merge.Completeness
import StoredObjects.Proofs.Load.Streaming
import StoredObjects.Proofs.Load.Reading
import StoredObjects.Proofs.Load.Agreement
import StoredObjects.Proofs.Load.Deaths
import StoredObjects.Proofs.Load.DeathReports
import StoredObjects.Proofs.ObjectType.Stages
import StoredObjects.Proofs.Merge.LostWorkers
import StoredObjects.Proofs.Decimal.Rounding
import StoredObjects.Proofs.Json.Separation
import StoredObjects.Proofs.Store.Representation
import StoredObjects.Proofs.Store.Locality
import StoredObjects.Proofs.Load.Alone
import StoredObjects.Proofs.Load.Progress
import StoredObjects.Proofs.Merge.Revealed
import StoredObjects.Proofs.Replica.Loading
import StoredObjects.Proofs.Replica.InitialLoad
import StoredObjects.Proofs.ObjectType.Course
import StoredObjects.Proofs.Load.ById
import StoredObjects.Proofs.Replica.FailedLoads
import StoredObjects.Proofs.Load.WriteOrder
import StoredObjects.Proofs.Json.Sameness
import StoredObjects.Proofs.Store.Exchange
import StoredObjects.Proofs.Store.Batches
import StoredObjects.Proofs.Store.Identities
import StoredObjects.Proofs.Converter.Matching
import StoredObjects.Proofs.Load.Queries
import StoredObjects.Proofs.Converter.Inverse
import StoredObjects.Proofs.Patch.Building
import StoredObjects.Proofs.ObjectType.Registering
import StoredObjects.Proofs.ObjectType.Places
import StoredObjects.Proofs.Replica.Tables
import StoredObjects.Proofs.Load.InFlight
import StoredObjects.Proofs.Load.Peeking
import StoredObjects.Proofs.Merge.FanIn
import StoredObjects.Proofs.Routing.TextHash
