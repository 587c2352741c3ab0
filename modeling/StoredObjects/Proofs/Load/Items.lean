import StoredObjects.Proofs.Load.DeathReports
import StoredObjects.Proofs.Load.Draining

/-! # The items of a load

What a load contributes to a merge ends with its last object or with its failure, and it leaves the
contents that the load leaves. No load over stores in memory stalls.
-/

namespace StoredObjects

theorem Item.readAll_map_value_append {α : Type} (as : List α) (rest : List (Item α)) :
    readAll (as.map value ++ rest) = (as ++ (readAll rest).1, (readAll rest).2) := by
  induction as with
  | nil => rfl
  | cons a as ih => simp [readAll, ih]

namespace Load

variable {Object : Type}

theorem convert_ne_stalled (step : Step Object) (workers : Nat) (pick : Nat → Nat)
    (raws : List Document) : convert step workers pick (raws.map .value) ≠ .error .stalled := by
  intro h
  unfold convert at h
  rw [Item.readAll_map_value] at h
  simp only at h
  cases hm : (arrange pick workers 0 raws).mapM step.process with
  | ok rs =>
    rw [hm] at h
    cases h
  | error halt =>
    rw [hm] at h
    cases halt <;> cases h

namespace Loader

variable {l : Loader Object} {w : World}

theorem result_loadEagerly_ne_stalled (hw : w.InMemory) (schedule : Schedule) :
    ((l.loadEagerly schedule).run w).2 ≠ .error .stalled := by
  intro h
  have hconvert : ((l.convertAll l.filter schedule.converted).run w).2 = _ :=
    result_convertAll schedule.converted w
  rw [(run_openSource hw l.filter).2.2] at hconvert
  rw [loadEagerly_eq_bind, Program.run_bind, hconvert] at h
  cases hselects : l.selects l.filter (w.contents l.binding.store) with
  | error e =>
    rw [hselects] at h
    cases h
  | ok raws =>
    rw [hselects] at h
    simp only [Except.map] at h
    cases hall : convert (l.step l.filter) l.settings.workers schedule.converted
        (raws.map .value) with
    | error i =>
      rw [hall] at h
      obtain rfl := Except.error.inj h
      exact convert_ne_stalled _ _ _ raws hall
    | ok o =>
      rw [hall, Program.run_bind] at h
      split at h <;> cases h

theorem run_loadItems_of_excluded (hexcluded : l.type.excludedFromLoad = true)
    (schedule : Schedule) (patience : Nat) (w : World) :
    (l.loadItems schedule patience).run w = (w, none, []) := by
  simp only [loadItems, hexcluded, if_true]
  rfl

theorem run_loadItems_of_lazy (hexcluded : l.type.excludedFromLoad = false)
    (hwrite : l.type.writeBack = false) (schedule : Schedule) (patience : Nat) (w : World) :
    (l.loadItems schedule patience).run w =
      ((l.stream.run w).1, none, (l.stream.run w).2.drain.2) := by
  simp only [loadItems, hexcluded, hwrite, Bool.false_eq_true, if_false, Bool.not_false, if_true]
  rw [Program.bind_eq, Program.run_bind]
  rfl

theorem run_loadItems_of_eager (hw : w.InMemory) (hexcluded : l.type.excludedFromLoad = false)
    (hwrite : l.type.writeBack = true) (schedule : Schedule) (patience : Nat) :
    (l.loadItems schedule patience).run w = (((l.loadEagerly schedule).run w).1,
      match ((l.loadEagerly schedule).run w).2 with
      | .ok r => (some r.report, r.objects.map .value)
      | .error i => (none, [.failed (l.failure i)])) := by
  have hgoes := result_loadEagerly_ne_stalled (l := l) hw schedule
  simp only [loadItems, hexcluded, hwrite, Bool.false_eq_true, if_false, Bool.not_true]
  rw [Program.bind_eq, Program.run_bind]
  cases hresult : ((l.loadEagerly schedule).run w).2 with
  | ok r => rfl
  | error i =>
    cases i with
    | stalled => exact absurd hresult hgoes
    | _ => rfl

theorem supplies_of_drains (hexcluded : l.type.excludedFromLoad = false)
    (hwrite : l.type.writeBack = false) {items : List (Item Object)}
    (h : (l.stream.run w).2.Drains items) : l.Supplies w items := by
  cases h with
  | all _ hall => exact .all ((yields_iff_of_lazy hexcluded hwrite).mpr hall)
  | some _ hsome => exact .some ((yields_iff_of_lazy hexcluded hwrite).mpr hsome)

/-- A load contributes what it can come to, and leaves the contents that it leaves. -/
theorem supplies_loadItems (hw : w.InMemory) (schedule : Schedule) (patience : Nat) :
    l.Supplies w ((l.loadItems schedule patience).run w).2.2 ∧
      ((l.loadItems schedule patience).run w).1.contents =
        ((l.loadAll schedule).run w).1.contents := by
  cases hexcluded : l.type.excludedFromLoad with
  | true =>
    rw [run_loadItems_of_excluded hexcluded, run_loadAll_of_excluded hexcluded]
    have hnone : l.Supplies w (([] : List Object).map .value) :=
      .all ((yields_iff_of_excluded hexcluded).mpr rfl)
    exact ⟨hnone, rfl⟩
  | false =>
    cases hwrite : l.type.writeBack with
    | false =>
      rw [run_loadItems_of_lazy hexcluded hwrite, run_loadAll_of_lazy hexcluded hwrite]
      refine ⟨?_, (run_lazyRun hw l.filter).2.1⟩
      have hfit : (l.stream.run w).2.Fit := fit_lazyRun hw
      exact supplies_of_drains hexcluded hwrite hfit.drains
    | true =>
      have hyields : l.Yields w ((((l.loadEagerly schedule).run w).2.map Result.objects).mapError
          l.failure) := (yields_iff_of_eager hexcluded hwrite).mpr ⟨schedule, rfl⟩
      rw [run_loadItems_of_eager hw hexcluded hwrite, run_loadAll hwrite hexcluded]
      refine ⟨?_, rfl⟩
      cases hresult : ((l.loadEagerly schedule).run w).2 with
      | ok r =>
        rw [hresult] at hyields
        exact .all hyields
      | error i =>
        rw [hresult] at hyields
        have hfailed : l.Supplies w (([] : List Object).map .value ++ [.failed (l.failure i)]) :=
          .some hyields
        exact hfailed

/-! ## What is read off the items -/

variable {items : List (Item Object)}

theorem Supplies.not_stalled (h : l.Supplies w items) : .stalled ∉ items := by
  cases h <;> simp

theorem Supplies.yields_of_complete (h : l.Supplies w items)
    (hcomplete : (Item.readAll items).2 = .complete) :
    l.Yields w (.ok (Item.readAll items).1) := by
  cases h with
  | all hall =>
    rw [Item.readAll_map_value]
    exact hall
  | some =>
    rw [Item.readAll_map_value_append] at hcomplete
    cases hcomplete

theorem Supplies.yields_of_failed (h : l.Supplies w items) {e : Failure}
    (hfailed : (Item.readAll items).2 = .failed e) : l.Yields w (.error e) := by
  cases h with
  | all => simp at hfailed
  | some hsome =>
    rw [Item.readAll_map_value_append] at hfailed
    obtain rfl : _ = e := Ending.failed.inj hfailed
    exact hsome

end Loader

end Load

end StoredObjects
