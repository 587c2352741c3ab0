/-!
The ways in which an operation can fail, each with the text that reports it.
-/

namespace StoredObjects

inductive Failure where
  /-- A stored document has a version that its type does not know. -/
  | unknownDocumentVersion (typeName : String) (version : Int) (oldest current : Nat)
  /-- A strict insert met an identity that is taken; `key` is the compact text of the identity. -/
  | duplicateDocumentKey (collection key : String)
  /-- A document has no object form, or could not be brought to the current version. -/
  | conversionFailed (detail : String)
  /-- A write that may succeed when it is tried again. -/
  | transientWrite (operation detail : String)
  | writeFailed (operation detail : String)
  | invalidPatchChain (detail : String)
  | illegalState (detail : String)
  | illegalArgument (detail : String)
  | timeout (detail : String)
  | connectivity (detail : String)
  /-- A value cannot be read as the thing that was asked for. -/
  | serialization (detail : String)
  | unknownType (name : String)
  /-- A task ended without an answer. -/
  | workerFailed (detail : String)
  deriving DecidableEq, Repr

namespace Failure

def message : Failure → String
  | unknownDocumentVersion typeName version oldest current =>
    s!"Document version {version} of '{typeName}' is outside the known range [{oldest}, {current}]"
  | duplicateDocumentKey collection key => s!"Duplicate key {key} in collection '{collection}'"
  | conversionFailed detail => s!"Conversion failed: {detail}"
  | transientWrite operation detail => s!"Transient failure during {operation}: {detail}"
  | writeFailed operation detail => s!"Write failure during {operation}: {detail}"
  | invalidPatchChain detail => s!"Invalid patch chain: {detail}"
  | illegalState detail => s!"Illegal state: {detail}"
  | illegalArgument detail => s!"Illegal argument: {detail}"
  | timeout detail => s!"Timed out: {detail}"
  | connectivity detail => s!"Connectivity error: {detail}"
  | serialization detail => s!"Serialization error: {detail}"
  | unknownType name => s!"Mirrored type '{name}' is not registered"
  | workerFailed detail => s!"Worker failed: {detail}"

def workerDied : Failure := workerFailed "task ended without an answer"

end Failure

/-- How a piece of caller-supplied code can fail to give a value: with a failure, or by ending the
task that runs it. -/
inductive Halt where
  | failed (e : Failure)
  | died
  deriving DecidableEq, Repr

end StoredObjects
