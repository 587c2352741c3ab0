import StoredObjects.Item
import StoredObjects.Load.Step

/-!
Conversion of a whole reading by a pool of workers.

At most so many documents are in work at a time. A document is taken from the reading only when a
worker is free for it, so that trouble in the reading is met while the last documents before it are
still in work, and their outcome is lost.
-/

namespace StoredObjects

universe u

variable {α : Type u}

/-- The order in which a window of `width` lets items through: `pick n` says which of those in the
window is the one to leave at the `n`-th time. -/
def arrange (pick : Nat → Nat) (width n : Nat) (items : List α) : List α :=
  let i := pick n % min (max width 1) items.length
  match h : items[i]? with
  | none => []
  | some a => a :: arrange pick width (n + 1) (items.eraseIdx i)
  termination_by items.length
  decreasing_by
    have hi := (List.getElem?_eq_some_iff.1 h).1
    rw [List.length_eraseIdx_of_lt hi]
    omega

theorem getElem_cons_eraseIdx {items : List α} {i : Nat} (h : i < items.length) :
    (items[i] :: items.eraseIdx i).Perm items := by
  induction items generalizing i with
  | nil => simp at h
  | cons a rest ih =>
    cases i with
    | zero => exact .refl _
    | succ i => exact (List.Perm.swap _ _ _).trans ((ih (by simpa using h)).cons a)

theorem arrange_perm (pick : Nat → Nat) (width n : Nat) (items : List α) :
    (arrange pick width n items).Perm items := by
  fun_induction arrange with
  | case1 n items i h =>
    rcases items with _ | ⟨a, rest⟩
    · exact .nil
    · have hpos : 0 < min (max width 1) (a :: rest).length := Nat.lt_min.2 ⟨by omega, by simp⟩
      have := Nat.mod_lt (pick n) hpos
      rw [List.getElem?_eq_none_iff] at h
      omega
  | case2 n items i a h ih =>
    obtain ⟨hi, rfl⟩ := List.getElem?_eq_some_iff.1 h
    exact (ih.cons _).trans (getElem_cons_eraseIdx hi)

theorem arrange_first (width n : Nat) (items : List α) :
    arrange (fun _ => 0) width n items = items := by
  induction items generalizing n with
  | nil => rw [arrange]; simp
  | cons a rest ih =>
    rw [arrange]
    split
    · rename_i h
      simp at h
    · rename_i b h
      obtain rfl : a = b := by simpa using h
      simp [ih]

namespace Load

/-- What is not fixed about a load: which of the documents in work is done first, and which of the
writes under way. -/
structure Schedule where
  converted : Nat → Nat
  written : Nat → Nat

def Schedule.inOrder : Schedule := ⟨fun _ => 0, fun _ => 0⟩

inductive Interruption where
  | failed (e : Failure)
  /-- The task of a document ended without an answer. -/
  | died
  | stalled
  deriving DecidableEq, Repr

def Interruption.ofHalt : Halt → Interruption
  | .failed e => .failed e
  | .died => .died

variable {Object : Type}

/-- The outcome for every document of a reading; nothing for those that were not wanted. -/
structure Outcome (Object : Type) where
  perDocument : List (Option (Loaded Object))

namespace Outcome

variable (o : Outcome Object)

def read : Nat := o.perDocument.length

def loaded : List (Loaded Object) := o.perDocument.filterMap id

def objects : List Object := o.loaded.map Loaded.object

def upgrades : List Upgrade := o.loaded.filterMap Loaded.upgrade

end Outcome

def convert (step : Step Object) (workers : Nat) (pick : Nat → Nat)
    (reading : List (Item Document)) : Except Interruption (Outcome Object) := do
  let (raws, ending) := Item.readAll reading
  let finished := arrange pick workers 0 raws
  let process (raws : List Document) : Except Interruption (Outcome Object) :=
    ((raws.mapM step.process).mapError Interruption.ofHalt).map Outcome.mk
  match ending with
  | .complete => process finished
  | .failed e => do
    discard (process (finished.take (raws.length - max workers 1)))
    .error (.failed e)
  | .stalled => do
    discard (process (finished.take (raws.length - max workers 1)))
    .error .stalled

end Load

end StoredObjects
