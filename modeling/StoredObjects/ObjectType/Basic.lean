import StoredObjects.Patch.Chain
import StoredObjects.Routing.Partition
import StoredObjects.Text.Category

/-!
Object types: how objects of one kind are kept as documents of one collection, and how documents of
older shapes are brought to the current one.

Upgrading a document runs the patches from its version on, each once and in ascending order. A
document whose version is outside the known range is refused before any patch runs.
-/

namespace StoredObjects

structure Upgrade where
  old : Document
  new : Document

def Upgrade.identityChanged (u : Upgrade) : Bool := u.old.identity? != u.new.identity?

structure ObjectType where
  name : String
  collection : String
  /-- The property of the object that is stored as the identity of the document. -/
  identityProperty : String
  routing : Routing.Key
  chain : PatchChain
  /-- Lets the store select the documents of a partition. -/
  routed : Bool
  /-- Writes upgraded documents back when they were loaded. -/
  writeBack : Bool
  excludedFromLoad : Bool
  /-- Keeps the document of an object that was removed. -/
  keepOnRemove : Bool

namespace ObjectType

structure Draft where
  name : String
  collection : String
  identityProperty : String := "id"
  routingProperty : Option String := none
  patches : List Patch := []
  routed : Bool := false
  writeBack : Bool := true
  excludedFromLoad : Bool := false
  keepOnRemove : Bool := false

def isBlank (s : String) : Bool := s.toList.all Category.isBlank

/-- Routes on the chosen property, unless that is the identity under its property's name. -/
def Draft.routing (draft : Draft) : Routing.Key :=
  match draft.routingProperty with
  | some property => if property = draft.identityProperty then .identity else ⟨property⟩
  | none => .identity

def chainFailure (name : String) : Failure → Failure
  | .invalidPatchChain detail => .invalidPatchChain s!"{name}: {detail}"
  | e => e

def ofDraft (draft : Draft) : Except Failure ObjectType :=
  if isBlank draft.name then
    .error (.illegalArgument "mirrored type name must not be empty")
  else if isBlank draft.collection then
    .error (.illegalArgument s!"collection name of '{draft.name}' must not be empty")
  else
    match PatchChain.ofList draft.patches with
    | .error e => .error (chainFailure draft.name e)
    | .ok chain => .ok
      { name := draft.name
        collection := draft.collection
        identityProperty := draft.identityProperty
        routing := draft.routing
        chain
        routed := draft.routed
        writeBack := draft.writeBack
        excludedFromLoad := draft.excludedFromLoad
        keepOnRemove := draft.keepOnRemove }

variable (t : ObjectType)

def currentVersion : Nat := t.chain.currentVersion

def knownVersion (d : Document) : Except Failure Nat :=
  if d.version < oldestVersion ∨ t.currentVersion < d.version then
    .error (.unknownDocumentVersion t.name d.version oldestVersion t.currentVersion)
  else .ok d.version.toNat

def isOutdated (d : Document) : Except Failure Bool :=
  (t.knownVersion d).map fun v => v < t.currentVersion

/-- Runs the one patch for the version of the document, in place: the document is given back as it
was left, also when the step fails. -/
def upgradeOnce (d : Document) : Document × Except Halt Unit :=
  if t.chain.isEmpty then
    (d, .error (.failed (.illegalState
      s!"'{t.name}' has no patches but patching was requested")))
  else
    match t.knownVersion d with
    | .error e => (d, .error (.failed e))
    | .ok version =>
      match t.chain.patch? version with
      | none => (d, .error (.failed (.illegalState
          s!"'{t.name}' has no patch for version {version}")))
      | some p =>
        match p.body d with
        | (d', .ok ()) => (d'.setVersion (version + 1), .ok ())
        | failed => failed

def upgrade (d : Document) : Except Halt Document :=
  match t.knownVersion d with
  | .error e => .error (.failed e)
  | .ok version => (t.chain.patchesFrom version).foldlM (fun d p => p.apply d) d

def upgradeWithPair (d : Document) : Except Halt (Document × Option Upgrade) := do
  match t.isOutdated d with
  | .error e => .error (.failed e)
  | .ok false => .ok (d, none)
  | .ok true =>
    let new ← t.upgrade d
    .ok (new, some ⟨d, new⟩)

end ObjectType

end StoredObjects
