import Mathlib.Data.List.Perm.Basic
import StoredObjects.Routing.Partition

/-! # Ownership

Every hash belongs to one of the partitions, the smallest word included, and so does every document
that has a routing value. The shares of all partitions together therefore make up the whole.
-/

namespace StoredObjects

namespace Routing

/-- The partition that a document belongs to; none has the number zero. -/
def owner (key : Key) (count : Nat) (d : Document) : Nat :=
  match key.value? d with
  | some v => partitionOf (hash v) count
  | none => 0

theorem partitionOf_mem_range' (h : Int32) {count : Nat} (hcount : 1 ≤ count) :
    partitionOf h count ∈ List.range' 1 count := by
  have hne : count ≠ 0 := by omega
  have hlt : magnitude h % count < count := Nat.mod_lt _ hcount
  simp only [partitionOf, hne, if_false, List.mem_range'_1]
  omega

variable {key : Key} {share : Share} {d : Document}

theorem owner_mem_range' {count : Nat} (hcount : 1 ≤ count) (hd : (key.value? d).isSome = true) :
    owner key count d ∈ List.range' 1 count := by
  obtain ⟨v, hv⟩ := Option.isSome_iff_exists.mp hd
  simp only [owner, hv]
  exact partitionOf_mem_range' _ hcount

theorem Share.owns_of_isSome (share : Share) (hd : (share.key.value? d).isSome = true) :
    share.owns d = .ok (owner share.key share.partition.count d == share.partition.id) := by
  obtain ⟨v, hv⟩ := Option.isSome_iff_exists.mp hd
  simp [owns, owner, hv]

section Shares

variable {α : Type} (f : α → Nat)

theorem filter_append_filter_perm (i : Nat) (ids : List Nat) (hi : i ∉ ids) (as : List α) :
    (as.filter (fun a => f a == i) ++ as.filter fun a => f a ∈ ids).Perm
      (as.filter fun a => f a ∈ i :: ids) := by
  induction as with
  | nil => exact .nil
  | cons a as ih =>
    by_cases ha : f a = i
    · have hnot : f a ∉ ids := ha ▸ hi
      simpa [ha, hnot, hi] using ih.cons a
    · by_cases hmem : f a ∈ ids
      · have hmiddle : ((as.filter fun b => f b == i) ++ a :: as.filter fun b => f b ∈ ids).Perm
            (a :: ((as.filter fun b => f b == i) ++ as.filter fun b => f b ∈ ids)) :=
          List.perm_middle
        simpa [ha, hmem] using hmiddle.trans (ih.cons a)
      · simpa [ha, hmem] using ih

theorem flatMap_filter_perm (ids : List Nat) (hids : ids.Nodup) (as : List α) :
    (ids.flatMap fun i => as.filter fun a => f a == i).Perm (as.filter fun a => f a ∈ ids) := by
  induction ids with
  | nil => simp
  | cons i ids ih =>
    obtain ⟨hi, hrest⟩ := List.nodup_cons.mp hids
    rw [List.flatMap_cons]
    exact ((ih hrest).append_left _).trans (filter_append_filter_perm f i ids hi as)

end Shares

end Routing

end StoredObjects
