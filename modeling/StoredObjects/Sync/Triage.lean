import StoredObjects.Document
import StoredObjects.Pattern.Reader
import StoredObjects.Settings
import StoredObjects.Sync.Intent
import StoredObjects.Text.Quoted

/-!
Triage of failed writes: whether a failure stops the batch or is noted and passed over.

Under the usual policy a failure that may pass stops the batch, so that the batch can be tried
again; all other failures are absorbed. The policy that absorbs everything is for operators.
-/

namespace StoredObjects

namespace Sync

inductive Policy where
  | rethrowTransient
  | catchAll
  deriving DecidableEq, Repr

def Policy.name : Policy → String
  | rethrowTransient => "RethrowTransient"
  | catchAll => "CatchAll"

inductive Severity where
  | warning
  | error
  deriving DecidableEq, Repr

structure Notice where
  severity : Severity
  text : String
  deriving DecidableEq, Repr

/-- A policy, and the patterns of the reports of failures that may pass. -/
structure Triage where
  policy : Policy
  patterns : List Pattern

namespace Triage

/-- Patterns ignore case. -/
def readPattern (text : String) : Except Failure Pattern :=
  match Pattern.ofText? true text with
  | some p => .ok p
  | none => .error (.illegalArgument s!"transient pattern: {text}")

def ofSettings (s : Settings.Sync) : Except Failure Triage :=
  (s.transientPatterns.mapM readPattern).map
    (Triage.mk (if s.catchAll then .catchAll else .rethrowTransient))

variable (t : Triage)

/-- Some kinds of failure always may pass, some never do; of the others the report decides. -/
def isTransient : Failure → Bool
  | .connectivity _ | .timeout _ | .transientWrite .. => true
  | .duplicateDocumentKey .. | .conversionFailed _ | .serialization _ | .unknownType _ => false
  | e => t.patterns.any fun p => p.occursIn e.message

def setPolicy (policy : Policy) : Triage × List Notice :=
  ({ t with policy },
    if t.policy = policy then []
    else [⟨.warning, "synchronization exception policy switched from "
      ++ s!"{t.policy.name} to {policy.name}"⟩])

def shownKeys (documents : List Document) : String :=
  Quoted.quoteAll (documents.map fun d => d.key?.getD "<no id>")

/-- Decides what becomes of a failed write. The batch is stopped by a failure that says which write
it was. -/
def decide (kind : Kind) (collection : String) (documents : List Document) (e : Failure) :
    Notice × Except Failure Unit :=
  let subject := s!"{kind.name} on '{collection}' for {shownKeys documents}: {e.message}"
  match t.policy with
  | .catchAll => (⟨.warning, s!"ignoring failed {subject}"⟩, .ok ())
  | .rethrowTransient =>
    if t.isTransient e then
      (⟨.warning, s!"transient failure during {subject}"⟩,
        .error (.transientWrite s!"{kind.name} on '{collection}'" e.message))
    else (⟨.error, s!"failed {subject}"⟩, .ok ())

end Triage

end Sync

end StoredObjects
