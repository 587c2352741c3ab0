import StoredObjects.Replica

/-! # Loads of a replica

A replica loads as the loader of the type does. What a load at once came to is the last report of
its type then, and the reports of other types stay.
-/

namespace StoredObjects

theorem Binding.name_of_find? {Object : Type} {bindings : List (Binding Object)} {name : String}
    {b : Binding Object} (h : find? bindings name = some b) : b.type.name = name := by
  simpa using List.find?_some h

namespace Replica

variable {Object : Type} {r : Replica Object} {name : String} {l : Load.Loader Object}

theorem lastReport?_note_self (r : Replica Object) (report : Load.Report) :
    (r.note (some report)).lastReport? report.typeName = some report :=
  TextMap.get?_insert_self _ _ _

theorem lastReport?_note_of_ne (r : Replica Object) {report : Load.Report}
    (hne : name ≠ report.typeName) :
    (r.note (some report)).lastReport? name = r.lastReport? name :=
  TextMap.get?_insert_of_ne _ _ hne

section Loader

variable (hl : r.loader name = .ok l)
include hl

theorem name_of_loader : l.type.name = name := by
  unfold loader at hl
  split at hl
  · rename_i b hfind
    cases hl
    exact Binding.name_of_find? hfind
  · cases hl

theorem run_loadAll (schedule : Load.Schedule) (w : World) :
    (r.loadAll schedule name).run w = (((l.loadAll schedule).run w).1,
      (r.note ((l.loadAll schedule).run w).2.1, ((l.loadAll schedule).run w).2.2)) := by
  unfold loadAll
  rw [hl]
  exact Program.run_bind _ _ _

theorem run_loadLike (schedule : Load.Schedule) (template : Object) (w : World) :
    (r.loadLike schedule name template).run w = (((l.loadLike schedule template).run w).1,
      r.keep ((l.loadLike schedule template).run w).2) := by
  unfold loadLike
  rw [hl]
  exact Program.run_bind _ _ _

theorem loadById_eq (v : Value) : r.loadById name v = l.loadById v := by
  unfold loadById
  rw [hl]

theorem reported_loadAll {schedule : Load.Schedule} {w : World} {report : Load.Report}
    {full : Except Failure (Load.Full Object)}
    (hloaded : ((l.loadAll schedule).run w).2 = (some report, full))
    (hname : report.typeName = l.type.name) :
    let after := (r.loadAll schedule name).run w
    after.1 = ((l.loadAll schedule).run w).1 ∧ after.2.2 = full ∧
      after.2.1.lastReport? name = some report ∧
      ∀ other, other ≠ name → after.2.1.lastReport? other = r.lastReport? other := by
  intro after
  obtain rfl : report.typeName = name := hname.trans (name_of_loader hl)
  have hrun : after = _ := run_loadAll hl schedule w
  rw [hrun, hloaded]
  exact ⟨rfl, rfl, r.lastReport?_note_self report, fun _ hne => r.lastReport?_note_of_ne hne⟩

end Loader

end Replica

end StoredObjects
