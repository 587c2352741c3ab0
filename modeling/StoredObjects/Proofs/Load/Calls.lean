import StoredObjects.Load.Full
import StoredObjects.Proofs.Load.Conversion
import StoredObjects.Proofs.Store.Faults

/-! # The calls of loads

Loads read, and write upgraded documents back in place of those that they read. They make no other
calls, whatever the stores reply.
-/

namespace StoredObjects

namespace Load.Loader

variable {Object : Type} {l : Loader Object} {P : String → Call → Prop}

theorem calls_writeBack {store : String} {us : List Upgrade}
    (hus : ∀ u ∈ us, P store (.replace u.old u.new)) : (writeBack store us).Calls P := by
  induction us with
  | nil => trivial
  | cons u us ih =>
    refine ⟨hus u List.mem_cons_self, fun r => ?_⟩
    cases r with
    | ok => exact ih fun v hv => hus v (List.mem_cons_of_mem _ hv)
    | error e => trivial

/-- A property that the calls of a loader have: its readings have it, and the write-back of every
upgrade that its type makes. -/
structure Permits (l : Loader Object) (P : String → Call → Prop) : Prop where
  reads : ∀ c : Call, c.writes = false → P l.binding.store c
  writes : ∀ old new, l.type.upgrade old = .ok new → P l.binding.store (.replace old new)

theorem Permits.openReading (h : l.Permits P) : l.openReading.Calls P := by
  unfold Loader.openReading Loader.openSource
  split <;> exact .perform (h.reads _ rfl)

theorem Permits.loadReading (h : l.Permits P) (schedule : Schedule)
    (filter : Routing.Filter Object) (reading : List (Item Document)) :
    (l.loadReading schedule filter reading).Calls P := by
  unfold Loader.loadReading
  split
  · trivial
  · rename_i o ho
    refine (calls_writeBack fun u hu => ?_).bind fun r => ?_
    · obtain ⟨raws, -, -, rfl⟩ := of_convert_eq_ok ho
      have hu := (arrange_perm _ _ _ _).mem_iff.mp hu
      rw [upgrades_map_outcome] at hu
      obtain ⟨raw, -, hraw⟩ := List.mem_filterMap.mp hu
      obtain ⟨rfl, hnew, -⟩ := Step.of_upgrade? hraw
      exact h.writes _ _ hnew
    · cases r <;> trivial

theorem Permits.loadEagerly (h : l.Permits P) (schedule : Schedule) :
    (l.loadEagerly schedule).Calls P := by
  unfold Loader.loadEagerly
  refine h.openReading.bind fun r => ?_
  cases r with
  | ok reading => exact h.loadReading schedule _ reading
  | error e => trivial

theorem Permits.loadMatching (h : l.Permits P) (schedule : Schedule) (q : Query)
    (filter : Routing.Filter Object) : (l.loadMatching schedule q filter).Calls P := by
  unfold Loader.loadMatching
  refine Program.Calls.bind (.perform (h.reads _ rfl)) fun r => ?_
  cases r with
  | ok reading => exact (h.loadReading schedule filter reading).bind fun _ => trivial
  | error e => trivial

theorem Permits.loadLike (h : l.Permits P) (schedule : Schedule) (template : Object) :
    (l.loadLike schedule template).Calls P := by
  unfold Loader.loadLike
  split
  · exact h.loadMatching schedule _ _
  · trivial

theorem Permits.loadById (h : l.Permits P) (identity : Value) : (l.loadById identity).Calls P := by
  unfold Loader.loadById
  split
  · trivial
  · refine Program.Calls.bind (.perform (h.reads _ rfl)) fun r => ?_
    match r with
    | .error e => trivial
    | .ok none => trivial
    | .ok (some raw) =>
      dsimp only
      cases hprocess : (l.step l.filter).process raw with
      | error halt => trivial
      | ok wanted =>
        cases wanted with
        | none => trivial
        | some loaded =>
          refine (calls_writeBack fun u hu => ?_).bind fun _ => trivial
          have hup : (l.step l.filter).upgrade? raw = some u := by
            simpa [Step.upgrade?, Step.outcome_of_ok hprocess] using hu
          obtain ⟨rfl, hnew, -⟩ := Step.of_upgrade? hup
          exact h.writes _ _ hnew

theorem Permits.stream (h : l.Permits P) : l.stream.Calls P := by
  unfold Loader.stream Loader.lazyRun
  refine h.openReading.bind fun r => ?_
  cases r <;> trivial

theorem Permits.loadAll (h : l.Permits P) (schedule : Schedule) :
    (l.loadAll schedule).Calls P := by
  unfold Loader.loadAll
  split
  · trivial
  · split
    · trivial
    · refine (h.loadEagerly schedule).bind fun r => ?_
      cases r <;> trivial

/-- What a load gives the means to read is its own stream. -/
theorem results_loadAll (l : Loader Object) (schedule : Schedule) :
    (l.loadAll schedule).Results fun x => ∀ start, x.2 = .ok (.lazy start) → start = l.stream := by
  unfold loadAll
  split
  · intro start h
    cases h
  · split
    · intro start h
      cases h
      rfl
    · refine (Program.results_true _).bind fun x _ => ?_
      cases x with
      | ok result =>
        intro start h
        cases h
      | error i =>
        intro start h
        cases h

theorem Permits.loadItems (h : l.Permits P) (schedule : Schedule) (patience : Nat) :
    (l.loadItems schedule patience).Calls P := by
  unfold Loader.loadItems
  split
  · trivial
  · split
    · exact h.stream.bind fun _ => trivial
    · refine (h.loadEagerly schedule).bind fun r => ?_
      cases r with
      | ok r => trivial
      | error i =>
        cases i with
        | stalled => dsimp only; split <;> trivial
        | _ => trivial

end Load.Loader

end StoredObjects
