import StoredObjects.Proofs.Load.Agreement
import StoredObjects.Proofs.Load.Deaths
import StoredObjects.Proofs.Merge.Completeness
import StoredObjects.Proofs.Merge.FirstFailure

/-! # Loads in which a document dies

A load at once reports every document that dies in work. A lazy load does so unless the document is
exposed: its reader can then come to an end that is like any other. A merge of loads passes on what
its parts report, so that it hides a death exactly when the load itself does.
-/

namespace StoredObjects

universe u

/-! ## Merges that are read to the end -/

section Merges

variable {α : Type u}

/-- What a reader collects from a merge: all items, or the failure that he met, or that he had
waited for too long. -/
inductive Merge.Collects (m : Merge α) : Except Failure (List α) → Prop where
  | ended {n : Nat} {items : List α} {m' : Merge α}
      (hrun : Runs m n (items.map .item ++ [.ended]) m') : Collects m (.ok items)
  | failed {n : Nat} {items : List α} {e : Failure} {m' : Merge α}
      (hrun : Runs m n (items.map .item ++ [.failed e]) m') : Collects m (.error e)
  | timedOut {n : Nat} {items : List α} {e : Failure} {m' : Merge α}
      (hrun : Runs m n (items.map .item) m') (hwaits : m'.look.2 = none)
      (htimeOut : m'.timeOut.2 = .failed e) : Collects m (.error e)

variable {sources : List (Source α)} {capacity patience : Nat}

theorem Source.failsFirst_ofItems (items : List α) (e : Failure) :
    (Source.ofItems (items.map .value ++ [.failed e])).FailsFirst e := by
  refine ⟨items, fun i a hi => ?_, ?_⟩
  · obtain ⟨hlt, rfl⟩ := List.getElem?_eq_some_iff.mp hi
    simp [Source.ofItems, List.getElem?_append_left, hlt]
  · simp [Source.ofItems]

theorem Merge.exists_error_of_collects {source : Source α} (hsource : source ∈ sources)
    {e : Failure} (hfails : source.FailsFirst e) {r : Except Failure (List α)}
    (hcollects : (ofSources capacity patience sources).Collects r) : ∃ e, r = .error e := by
  cases hcollects with
  | failed => exact ⟨_, rfl⟩
  | timedOut => exact ⟨_, rfl⟩
  | ended hrun =>
    obtain ⟨items, failures, hanswers, -⟩ := exists_told hsource hfails
      (flows_ofSources capacity patience sources) ⟨by simp, by simp⟩ hrun
    have hended : Answer.ended ∈ items.map Answer.item ++ failures.map Answer.failed :=
      hanswers ▸ by simp
    simp at hended

theorem Merge.exists_collects_ofList (capacity patience : Nat) (lists : List (List α)) :
    ∃ items, (ofSources capacity patience (lists.map .ofList)).Collects (.ok items) := by
  obtain ⟨n, items, m, hrun⟩ := (Runs.start (m := ofSources capacity patience
    (lists.map .ofList))).exists_ended
  exact ⟨items, .ended hrun⟩

end Merges

namespace Load

variable {Object : Type}

namespace Loader

variable {l : Loader Object} {w : World} {reading : List (Item Document)}

/-- What a load contributes to a merge: its objects, or some objects and then its failure. -/
inductive Supplies (l : Loader Object) (w : World) : List (Item Object) → Prop where
  | all {objects : List Object} (h : l.Yields w (.ok objects)) : Supplies l w (objects.map .value)
  | some {objects : List Object} {e : Failure} (h : l.Yields w (.error e)) :
      Supplies l w (objects.map .value ++ [.failed e])

section Reading

variable (hexcluded : l.type.excludedFromLoad = false)
  (hreading : (l.openReading.run w).2 = .ok reading)
include hexcluded hreading

theorem yields_iff_collects_opened (hwrite : l.type.writeBack = false)
    {r : Except Failure (List Object)} : l.Yields w r ↔
      (Stream.opened (l.step l.filter) (max l.settings.workers 1)
        (max l.settings.outputCapacity 1) reading).Collects r := by
  have hopened : (l.stream.run w).2 = Stream.opened (l.step l.filter) (max l.settings.workers 1)
      (max l.settings.outputCapacity 1) reading := by
    have hsource : ((l.openSource l.filter).run w).2 = .ok reading := hreading
    rw [stream, run_lazyRun_eq, hsource]
  rw [yields_iff_of_lazy hexcluded hwrite, hopened]

theorem exists_ok_of_yields (hwrite : l.type.writeBack = true) {objects : List Object}
    (h : l.Yields w (.ok objects)) :
    ∀ raw ∈ (Item.readAll reading).1, ∃ x, (l.step l.filter).process raw = .ok x := by
  obtain ⟨schedule, hresult⟩ := (yields_iff_of_eager hexcluded hwrite).mp h
  have hconverted : ((l.convertAll l.filter schedule.converted).run w).2 =
      convert (l.step l.filter) l.settings.workers schedule.converted reading := by
    have hsource : ((l.openSource l.filter).run w).2 = .ok reading := hreading
    rw [result_convertAll, hsource]
  rw [loadEagerly_eq_bind, Program.run_bind, hconverted] at hresult
  cases hconvert : convert (l.step l.filter) l.settings.workers schedule.converted reading with
  | error i =>
    rw [hconvert] at hresult
    cases hresult
  | ok o =>
    obtain ⟨raws, hread, hok, -⟩ := of_convert_eq_ok hconvert
    rw [hread]
    exact hok

theorem exists_yields (hreadable : .stalled ∉ reading) : ∃ r, l.Yields w r := by
  cases hwrite : l.type.writeBack with
  | true => exact ⟨_, (yields_iff_of_eager hexcluded hwrite).mpr ⟨.inOrder, rfl⟩⟩
  | false =>
    have hcapacity : 0 < max l.settings.outputCapacity 1 := by omega
    have hfit : (Stream.opened (l.step l.filter) (max l.settings.workers 1)
        (max l.settings.outputCapacity 1) reading).Fit := Stream.fit_opened hcapacity hreadable
    obtain ⟨r, hr⟩ := hfit.exists_collects
    exact ⟨r, (yields_iff_collects_opened hexcluded hreading hwrite).mpr hr⟩

end Reading

end Loader

/-- When a document that is read dies in work, the load is sure to fail, and with it every merge of
which it is a part, exactly when the load writes back or leaves no document exposed. -/
theorem death_reported_iff_not_exposed (l : Loader Object) (w : World)
    {reading : List (Item Document)} (hexcluded : l.type.excludedFromLoad = false)
    (hreading : (l.openReading.run w).2 = .ok reading)
    (hdied : ∃ raw ∈ (Item.readAll reading).1, (l.step l.filter).process raw = .error .died) :
    ((∀ r, l.Yields w r → ∃ e, r = .error e) ↔ l.type.writeBack = true ∨
      ¬ Exposed (l.step l.filter) (max l.settings.workers 1) (Item.readAll reading).1) ∧
    ((∀ items, l.Supplies w items → ∀ capacity patience sources, .ofItems items ∈ sources →
        ∀ r, (Merge.ofSources capacity patience sources).Collects r → ∃ e, r = .error e) ↔
      l.type.writeBack = true ∨
      ¬ Exposed (l.step l.filter) (max l.settings.workers 1) (Item.readAll reading).1) ∧
    (.stalled ∉ reading → ∃ r, l.Yields w r) := by
  obtain ⟨raw, hraw, hdied⟩ := hdied
  have hcapacity : 0 < max l.settings.outputCapacity 1 := by omega
  have hends : (Stream.opened (l.step l.filter) (max l.settings.workers 1)
      (max l.settings.outputCapacity 1) reading).Ends ↔
      Exposed (l.step l.filter) (max l.settings.workers 1) (Item.readAll reading).1 :=
    Stream.ends_opened_iff hcapacity ⟨raw, hraw, _, hdied⟩
  -- an end like any other can be met in a lazy load with an exposed document only
  have hyields : (∃ objects, l.Yields w (.ok objects)) ↔ l.type.writeBack = false ∧
      Exposed (l.step l.filter) (max l.settings.workers 1) (Item.readAll reading).1 := by
    cases hwrite : l.type.writeBack with
    | true =>
      simp only [Bool.true_eq_false, false_and, iff_false]
      rintro ⟨objects, hobjects⟩
      obtain ⟨x, hx⟩ := Loader.exists_ok_of_yields hexcluded hreading hwrite hobjects raw hraw
      rw [hdied] at hx
      cases hx
    | false =>
      rw [← hends]
      simp only [Loader.yields_iff_collects_opened hexcluded hreading hwrite, true_and]
      rfl
  have hfails : (¬ ∃ objects, l.Yields w (.ok objects)) ↔ l.type.writeBack = true ∨
      ¬ Exposed (l.step l.filter) (max l.settings.workers 1) (Item.readAll reading).1 := by
    rw [hyields, not_and_or, Bool.not_eq_false]
  refine ⟨?_, ?_, Loader.exists_yields hexcluded hreading⟩
  · rw [← hfails]
    constructor
    · rintro hall ⟨objects, hobjects⟩
      obtain ⟨e, he⟩ := hall _ hobjects
      cases he
    · intro hno r hr
      cases r with
      | error e => exact ⟨e, rfl⟩
      | ok objects => exact absurd ⟨objects, hr⟩ hno
  · rw [← hfails]
    constructor
    · rintro hall ⟨objects, hobjects⟩
      obtain ⟨items, hitems⟩ := Merge.exists_collects_ofList 1 0 [objects]
      obtain ⟨e, he⟩ := hall _ (.all hobjects) 1 0 [.ofList objects] (by simp [Source.ofList]) _
        hitems
      cases he
    · rintro hno items (⟨hobjects⟩ | ⟨-⟩) capacity patience sources hsource r hr
      · exact absurd ⟨_, hobjects⟩ hno
      · exact Merge.exists_error_of_collects hsource (Source.failsFirst_ofItems _ _) hr

/-! Apples in their current form before a pear that takes its worker down. -/

def spoiling : Patch where
  fromVersion := 1
  description := none
  body := fun d => (d, .error .died)

def current (name : String) : Document := (Document.ofIdentity (.text name)).setVersion 2

def stall : World :=
  ⟨TextMap.empty.insert "fruits"
    { collection := ((Collection.empty "fruits").put "\"apple\"" (current "apple")).put
        "\"pear\"" (.ofIdentity (.text "pear"))
      supply := fun _ => "" }⟩

def spoiled (workers : Nat) : Loader Value where
  binding := ⟨{ fruitType with chain := ⟨[spoiling], rfl⟩, writeBack := false }, "fruits", "fruits",
    .ofCodec .value "name"⟩
  settings := { workers }
  partition := none

def stallReading : List (Item Document) :=
  [.value (current "apple"), .value (.ofIdentity (.text "pear"))]

theorem read_spoiled (workers : Nat) :
    ((spoiled workers).openReading.run stall).2 = .ok stallReading := rfl

theorem pear_dies (workers : Nat) :
    ((spoiled workers).step (spoiled workers).filter).process (.ofIdentity (.text "pear")) =
      .error .died := rfl

/-- With two workers, a task takes the pear, and its death is reported. -/
theorem pear_reported_by_two :
    (∃ r, (spoiled 2).Yields stall r) ∧ ∀ r, (spoiled 2).Yields stall r → ∃ e, r = .error e := by
  obtain ⟨hiff, -, hanswered⟩ := death_reported_iff_not_exposed (spoiled 2) stall rfl
    (read_spoiled 2) ⟨.ofIdentity (.text "pear"), by simp [stallReading, Item.readAll], pear_dies 2⟩
  refine ⟨hanswered (by simp [stallReading]), hiff.mpr (Or.inr ?_)⟩
  rintro ⟨before, raw, after, hdocs, -, hmany, -⟩
  have hlength : 2 = before.length + (after.length + 1) := by
    simpa [stallReading, Item.readAll] using congrArg List.length hdocs
  change 2 ≤ before.length at hmany
  omega

/-- A single worker is busy with the apple: the feeder dies over the pear, and the load ends with
nothing, as if nothing were stored. -/
theorem pear_lost_by_one :
    ((spoiled 1).openReading.run stall).2 = .ok stallReading ∧
    (∃ raw ∈ (Item.readAll stallReading).1,
      ((spoiled 1).step (spoiled 1).filter).process raw = .error .died) ∧
    (spoiled 1).Yields stall (.ok []) ∧ (spoiled 1).Supplies stall [] ∧
    (Merge.ofSources 1 0 [.ofItems ([] : List (Item Value))]).Collects (.ok []) := by
  have hlost : (spoiled 1).Yields stall (.ok []) := by
    refine (Loader.yields_iff_collects_opened rfl (read_spoiled 1) rfl).mpr ?_
    exact .moved (e := .read) rfl <| .moved (e := .collect) rfl <| .moved (e := .read) rfl <|
      .moved (e := .work) rfl <| .moved (e := .abort 0) rfl <| .ended rfl
  refine ⟨read_spoiled 1, ?_, hlost, .all hlost, ?_⟩
  · exact ⟨.ofIdentity (.text "pear"), by simp [stallReading, Item.readAll], pear_dies 1⟩
  · exact .ended ((Merge.Runs.start.moved (e := .take 0) rfl).answered rfl)

end Load

end StoredObjects
