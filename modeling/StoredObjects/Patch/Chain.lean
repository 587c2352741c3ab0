import StoredObjects.Document
import StoredObjects.Json.Inspect

/-!
Patches bring a document from one version of its shape to the next; a chain holds one patch for
every version from the first on.

A chain can only be built from patches whose versions are `1, …, n` in some order. Among several
faults a repeated version is reported before a gap, the smallest first.
-/

namespace StoredObjects

/-- A step from version `fromVersion` to the next. The body gives the document as it leaves it, also
when it fails half-way. -/
structure Patch where
  fromVersion : Nat
  description : Option String
  body : Document → Document × Except Halt Unit

namespace Patch

def describe (p : Patch) : String :=
  s!"DocumentPatch \x7b patched_version: {p.fromVersion}, description: "
    ++ Inspect.optionalText p.description ++ " \x7d"

/-- Runs the body and stamps its result with the next version. -/
def apply (p : Patch) (d : Document) : Except Halt Document :=
  match p.body d with
  | (d', .ok ()) => .ok (d'.setVersion (p.fromVersion + 1))
  | (_, .error e) => .error e

end Patch

def oldestVersion : Nat := 1

/-- The first version, in ascending order, that equals its predecessor. -/
def firstRepeated? : List Nat → Option Nat
  | a :: b :: rest => if a = b then some b else firstRepeated? (b :: rest)
  | _ => none

/-- The first place where a list departs from `start, start + 1, …`, and what stands there. -/
def firstGap? (start : Nat) : List Nat → Option (Nat × Nat)
  | [] => none
  | v :: rest => if v = start then firstGap? (start + 1) rest else some (start, v)

theorem firstGap?_eq_none_iff {start : Nat} {vs : List Nat} :
    firstGap? start vs = none ↔ vs = List.range' start vs.length := by
  induction vs generalizing start with
  | nil => simp [firstGap?]
  | cons v rest ih =>
    unfold firstGap?
    split
    · rename_i h
      subst h
      simp [List.range'_succ, ih]
    · rename_i h
      simp [List.range'_succ, h]

/-- One patch for each version from the oldest on. -/
structure PatchChain where
  patches : List Patch
  contiguous : patches.map Patch.fromVersion = List.range' oldestVersion patches.length

namespace PatchChain

def empty : PatchChain := ⟨[], rfl⟩

instance : Inhabited PatchChain := ⟨empty⟩

def ofList (patches : List Patch) : Except Failure PatchChain :=
  let sorted := patches.mergeSort fun p q => p.fromVersion ≤ q.fromVersion
  match firstRepeated? (sorted.map Patch.fromVersion) with
  | some v => .error (.invalidPatchChain s!"duplicate patch for version {v}")
  | none =>
    match h : firstGap? oldestVersion (sorted.map Patch.fromVersion) with
    | some (expected, found) =>
      .error (.invalidPatchChain s!"expected patch for version {expected} but found {found}")
    | none => .ok ⟨sorted, by simpa using firstGap?_eq_none_iff.1 h⟩

def size (chain : PatchChain) : Nat := chain.patches.length

def isEmpty (chain : PatchChain) : Bool := chain.patches.isEmpty

def versions (chain : PatchChain) : List Nat := chain.patches.map Patch.fromVersion

def currentVersion (chain : PatchChain) : Nat := oldestVersion + chain.size

def newestPatched? (chain : PatchChain) : Option Nat := chain.versions.getLast?

def patch? (chain : PatchChain) (version : Nat) : Option Patch :=
  if version < oldestVersion then none else chain.patches[version - oldestVersion]?

def patchesFrom (chain : PatchChain) (version : Nat) : List Patch :=
  chain.patches.drop (version - oldestVersion)

def describe (chain : PatchChain) : String :=
  let versions := String.intercalate ", " (chain.versions.map toString)
  s!"PatchChain \x7b versions: [{versions}], current_version: {chain.currentVersion} \x7d"

end PatchChain

end StoredObjects
