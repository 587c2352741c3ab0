import StoredObjects.Load.Full
import StoredObjects.Proofs.Load.Conversion
import StoredObjects.Proofs.Store.Contents

/-! # Loads at once

A load of stores in memory that writes upgraded documents back succeeds when three things do: the
selection of the documents, the work on each of them, and the exchange of the upgraded documents, in
the order in which they are written. Its objects and the documents it writes are then those of the
single documents, in some order.
-/

namespace StoredObjects

/-- Exchanges documents for their new forms, up to the first that fails. -/
def Collection.rewrite (c : Collection) (us : List Upgrade) : Except Failure Collection :=
  us.foldlM (fun c u => c.replace u.old u.new) c

theorem Collection.rewrite_cons {c : Collection} {u : Upgrade} {us : List Upgrade} :
    c.rewrite (u :: us) = c.replace u.old u.new >>= fun c' => c'.rewrite us := List.foldlM_cons

theorem World.answer_replace {w : World} {store : String} {old new : Document} {c : Collection}
    (hw : w.InMemory) (h : (w.contents store).replace old new = .ok c) :
    (w.answer store (.replace old new)).1.InMemory ∧
      (w.answer store (.replace old new)).1.contents = Function.update w.contents store c ∧
      (w.answer store (.replace old new)).2 = .ok () := by
  have hanswer := Store.answers_replace (hw store) old new
  have hcontents := World.contents_answer hanswer
  have hreply := World.reply_answer hanswer
  change (w.store store).collection.replace old new = .ok c at h
  rw [h] at hcontents hreply
  exact ⟨hw.answer store (.replace old new), hcontents, hreply⟩

namespace Load

variable {Object : Type}

namespace Loader

variable {l : Loader Object} {w : World} {schedule : Schedule} {raws : List Document}
  {c : Collection}

def selects (l : Loader Object) (filter : Routing.Filter Object) (c : Collection) :
    Except Failure (List Document) :=
  match filter.share?, l.type.routed with
  | some share, true => c.ownedBy share
  | _, _ => .ok c.documents

/-- The documents that a load selects. -/
def source (l : Loader Object) (c : Collection) : Except Failure (List Document) :=
  l.selects l.filter c

theorem source_of_not_routed (hrouted : l.type.routed = false) :
    l.source c = .ok c.documents := by
  simp only [source, selects, hrouted]
  split
  · rename_i h
    cases h
  · rfl

def outcome (l : Loader Object) (schedule : Schedule) (raws : List Document) : Outcome Object :=
  ⟨(arrange schedule.converted l.settings.workers 0 raws).map (l.step l.filter).outcome⟩

def rewrites (l : Loader Object) (schedule : Schedule) (raws : List Document) : List Upgrade :=
  arrange schedule.written l.settings.workers 0 (l.outcome schedule raws).upgrades

def Decides (l : Loader Object) (raws : List Document) : Prop :=
  ∀ raw ∈ raws, ∃ r, (l.step l.filter).process raw = .ok r

/-- A load that reads `raws` succeeds and leaves the collection `c`. -/
structure Succeeds (l : Loader Object) (schedule : Schedule) (w : World) (raws : List Document)
    (c : Collection) : Prop where
  source : l.source (w.contents l.binding.store) = .ok raws
  decides : l.Decides raws
  rewrite : (w.contents l.binding.store).rewrite (l.rewrites schedule raws) = .ok c

def result (l : Loader Object) (schedule : Schedule) (raws : List Document) : Result Object :=
  ⟨(l.outcome schedule raws).objects, l.reportOf (l.outcome schedule raws)⟩

theorem rewrites_perm (schedule : Schedule) (raws : List Document) :
    (l.rewrites schedule raws).Perm (raws.filterMap (l.step l.filter).upgrade?) := by
  rw [rewrites, outcome, upgrades_map_outcome]
  exact (arrange_perm _ _ _ _).trans ((arrange_perm _ _ _ _).filterMap _)

theorem objects_perm (schedule : Schedule) (raws : List Document) :
    (l.outcome schedule raws).objects.Perm (raws.filterMap (l.step l.filter).object?) := by
  rw [outcome, objects_map_outcome]
  exact (arrange_perm _ _ _ _).filterMap _

theorem run_openSource (hw : w.InMemory) (filter : Routing.Filter Object) :
    ((l.openSource filter).run w).1.InMemory ∧
      ((l.openSource filter).run w).1.contents = w.contents ∧
      ((l.openSource filter).run w).2 =
        (l.selects filter (w.contents l.binding.store)).map fun raws => raws.map .value := by
  have hshare : ∀ share, l.openSource filter = .perform l.binding.store (.findShare share) →
      l.selects filter (w.contents l.binding.store) =
        (w.contents l.binding.store).ownedBy share →
      ((l.openSource filter).run w).1.InMemory ∧
        ((l.openSource filter).run w).1.contents = w.contents ∧
        ((l.openSource filter).run w).2 =
          (l.selects filter (w.contents l.binding.store)).map fun raws => raws.map .value := by
    intro share hopen hsource
    have h := Store.answers_findShare (hw l.binding.store) share
    rw [hopen, hsource]
    refine ⟨hw.answer l.binding.store (.findShare share), ?_, World.reply_answer h⟩
    exact (World.contents_answer h).trans (Function.update_eq_self l.binding.store w.contents)
  have hall : l.openSource filter = .perform l.binding.store .findAll →
      l.selects filter (w.contents l.binding.store) =
        .ok (w.contents l.binding.store).documents →
      ((l.openSource filter).run w).1.InMemory ∧
        ((l.openSource filter).run w).1.contents = w.contents ∧
        ((l.openSource filter).run w).2 =
          (l.selects filter (w.contents l.binding.store)).map fun raws => raws.map .value := by
    intro hopen hsource
    have h := Store.answers_findAll (hw l.binding.store)
    rw [hopen, hsource]
    refine ⟨hw.answer l.binding.store .findAll, ?_, World.reply_answer h⟩
    exact (World.contents_answer h).trans (Function.update_eq_self l.binding.store w.contents)
  cases hs : filter.share? with
  | none => exact hall (by simp [openSource, hs]) (by simp [selects, hs])
  | some share =>
    cases hr : l.type.routed with
    | true => exact hshare share (by simp [openSource, hs, hr]) (by simp [selects, hs, hr])
    | false => exact hall (by simp [openSource, hs, hr]) (by simp [selects, hs, hr])

theorem run_openReading (hw : w.InMemory) :
    (l.openReading.run w).1.InMemory ∧ (l.openReading.run w).1.contents = w.contents ∧
      (l.openReading.run w).2 =
        (l.source (w.contents l.binding.store)).map fun raws => raws.map .value :=
  run_openSource hw l.filter

theorem openReading_of_not_routed (hrouted : l.type.routed = false) :
    l.openReading = .perform l.binding.store .findAll := by
  cases hs : l.filter.share? <;> simp [openReading, openSource, hs, hrouted]

theorem run_writeBack_cons (store : String) (u : Upgrade) (us : List Upgrade) (w : World) :
    (writeBack store (u :: us)).run w =
      match (w.answer store (.replace u.old u.new)).2 with
      | .ok () => (writeBack store us).run (w.answer store (.replace u.old u.new)).1
      | .error e => ((w.answer store (.replace u.old u.new)).1, .error e) := by
  rw [writeBack, Program.run_call]
  split <;> simp_all

theorem run_writeBack_of_ok {store : String} {us : List Upgrade} (hw : w.InMemory)
    (h : (w.contents store).rewrite us = .ok c) :
    ((writeBack store us).run w).1.InMemory ∧
      ((writeBack store us).run w).1.contents = Function.update w.contents store c ∧
      ((writeBack store us).run w).2 = .ok () := by
  induction us generalizing w with
  | nil =>
    obtain rfl := Except.ok.inj h
    exact ⟨hw, (Function.update_eq_self store w.contents).symm, rfl⟩
  | cons u us ih =>
    rw [Collection.rewrite_cons] at h
    cases hr : (w.contents store).replace u.old u.new with
    | error e =>
      rw [hr] at h
      cases h
    | ok c' =>
      rw [hr] at h
      obtain ⟨hmem, hcontents, hreply⟩ := World.answer_replace hw hr
      rw [run_writeBack_cons, hreply]
      have hrest :
          ((w.answer store (.replace u.old u.new)).1.contents store).rewrite us = .ok c := by
        rw [hcontents, Function.update_self]
        exact h
      obtain ⟨hmem, hend, hok⟩ := ih hmem hrest
      refine ⟨hmem, ?_, hok⟩
      exact hend.trans (by rw [hcontents, Function.update_idem])

theorem run_writeBack_of_error {store : String} {us : List Upgrade} {e : Failure}
    (hw : w.InMemory) (h : (w.contents store).rewrite us = .error e) :
    ((writeBack store us).run w).2 = .error e := by
  induction us generalizing w with
  | nil => cases h
  | cons u us ih =>
    rw [Collection.rewrite_cons] at h
    cases hr : (w.contents store).replace u.old u.new with
    | error e' =>
      have hreply := World.reply_answer (Store.answers_replace (hw store) u.old u.new)
      rw [hr] at h
      change (w.store store).collection.replace u.old u.new = .error e' at hr
      rw [hr] at hreply
      rw [run_writeBack_cons, hreply]
      obtain rfl := Except.error.inj h
      rfl
    | ok c' =>
      rw [hr] at h
      obtain ⟨hmem, hcontents, hreply⟩ := World.answer_replace hw hr
      rw [run_writeBack_cons, hreply]
      refine ih hmem ?_
      rw [hcontents, Function.update_self]
      exact h

theorem loadReading_of_not_decides (hno : ¬ l.Decides raws) (schedule : Schedule) :
    ∃ i, l.loadReading schedule l.filter (raws.map .value) = .done (.error i) := by
  unfold loadReading
  cases hconvert : convert (l.step l.filter) l.settings.workers schedule.converted
      (raws.map .value) with
  | error i => exact ⟨i, rfl⟩
  | ok o =>
    obtain ⟨raws', hread, hok, -⟩ := of_convert_eq_ok hconvert
    rw [Item.readAll_map_value] at hread
    obtain rfl := (Prod.mk.inj hread).1
    exact absurd hok hno

theorem loadReading_eq (hraws : l.Decides raws) (schedule : Schedule) :
    l.loadReading schedule l.filter (raws.map .value) =
      (writeBack l.binding.store (l.rewrites schedule raws)).bind fun r => .done (match r with
        | .ok () => .ok (l.result schedule raws)
        | .error e => .error (.failed e)) := by
  unfold loadReading
  rw [convert_eq_ok hraws]
  refine congrArg (Program.bind _) (funext fun r => ?_)
  cases r <;> rfl

theorem run_loadReading (hraws : l.Decides raws) (schedule : Schedule) (w : World) :
    (l.loadReading schedule l.filter (raws.map .value)).run w =
      (((writeBack l.binding.store (l.rewrites schedule raws)).run w).1,
        match ((writeBack l.binding.store (l.rewrites schedule raws)).run w).2 with
        | .ok () => .ok (l.result schedule raws)
        | .error e => .error (.failed e)) := by
  rw [loadReading_eq hraws, Program.run_bind]
  rfl

theorem run_loadEagerly (hw : w.InMemory)
    (hsource : l.source (w.contents l.binding.store) = .ok raws) (schedule : Schedule) :
    (l.loadEagerly schedule).run w =
      (l.loadReading schedule l.filter (raws.map .value)).run (l.openReading.run w).1 := by
  have hreply := (run_openReading (l := l) hw).2.2
  rw [hsource] at hreply
  unfold loadEagerly
  rw [Program.bind_eq, Program.run_bind, hreply]
  rfl

theorem run_loadEagerly_of_succeeds (hw : w.InMemory) (h : l.Succeeds schedule w raws c) :
    ((l.loadEagerly schedule).run w).1.InMemory ∧
      ((l.loadEagerly schedule).run w).1.contents =
        Function.update w.contents l.binding.store c ∧
      ((l.loadEagerly schedule).run w).2 = .ok (l.result schedule raws) := by
  obtain ⟨hu, hcontents, -⟩ := run_openReading (l := l) hw
  have hrewrite := h.rewrite
  rw [← hcontents] at hrewrite
  obtain ⟨hmem, hend, hok⟩ := run_writeBack_of_ok hu hrewrite
  rw [run_loadEagerly hw h.source, run_loadReading h.decides, hok]
  exact ⟨hmem, hcontents ▸ hend, rfl⟩

theorem run_loadLike (hw : w.InMemory) {template : Object} {q : Query}
    (hq : l.binding.converter.toQuery template = .ok q) (schedule : Schedule) :
    (l.loadLike schedule template).run w =
      let loading := (l.loadReading schedule l.filter
          (((w.contents l.binding.store).select q).map .value)).run
        (w.answer l.binding.store (.findByQuery q)).1
      (loading.1, loading.2.mapError l.failure) := by
  have hreply := (World.answer_findByQuery hw l.binding.store q).2
  simp only [loadLike, hq]
  unfold loadMatching Program.perform
  rw [Program.bind_call, Program.run_call, hreply, Program.bind_done]
  exact Program.run_bind _ _ _

theorem succeeds_of_run_loadEagerly {r : Result Object} (hw : w.InMemory)
    (h : ((l.loadEagerly schedule).run w).2 = .ok r) :
    ∃ raws c, l.Succeeds schedule w raws c ∧ r = l.result schedule raws := by
  obtain ⟨hu, hcontents, hreply⟩ := run_openReading (l := l) hw
  cases hsource : l.source (w.contents l.binding.store) with
  | error e =>
    rw [hsource] at hreply
    unfold loadEagerly at h
    rw [Program.bind_eq, Program.run_bind, hreply] at h
    cases h
  | ok raws =>
    rw [run_loadEagerly hw hsource] at h
    by_cases hraws : l.Decides raws
    · rw [run_loadReading hraws] at h
      cases hc : (w.contents l.binding.store).rewrite (l.rewrites schedule raws) with
      | error e =>
        rw [← hcontents] at hc
        rw [run_writeBack_of_error hu hc] at h
        cases h
      | ok c =>
        refine ⟨raws, c, ⟨hsource, hraws, hc⟩, ?_⟩
        rw [← hcontents] at hc
        rw [(run_writeBack_of_ok hu hc).2.2] at h
        exact (Except.ok.inj h).symm
    · obtain ⟨i, hi⟩ := loadReading_of_not_decides hraws schedule
      rw [hi] at h
      cases h

/-! ## Full loads -/

theorem loadAll_eq (hwrite : l.type.writeBack = true) (hexcluded : l.type.excludedFromLoad = false)
    (schedule : Schedule) :
    l.loadAll schedule = (l.loadEagerly schedule).bind fun r => .done (match r with
      | .ok r => (some r.report, .ok (.loaded r.objects))
      | .error i => (none, .error (l.failure i))) := by
  simp only [loadAll, hwrite, hexcluded, Bool.false_eq_true, if_false, Bool.not_true]
  refine congrArg (Program.bind _) (funext fun r => ?_)
  cases r <;> rfl

theorem run_loadAll (hwrite : l.type.writeBack = true) (hexcluded : l.type.excludedFromLoad = false)
    (schedule : Schedule) (w : World) :
    (l.loadAll schedule).run w = (((l.loadEagerly schedule).run w).1,
      match ((l.loadEagerly schedule).run w).2 with
      | .ok r => (some r.report, .ok (.loaded r.objects))
      | .error i => (none, .error (l.failure i))) := by
  rw [loadAll_eq hwrite hexcluded, Program.run_bind]
  rfl

theorem run_loadAll_of_succeeds (hwrite : l.type.writeBack = true)
    (hexcluded : l.type.excludedFromLoad = false) (hw : w.InMemory)
    (h : l.Succeeds schedule w raws c) :
    ((l.loadAll schedule).run w).1.InMemory ∧
      ((l.loadAll schedule).run w).1.contents = Function.update w.contents l.binding.store c ∧
      ((l.loadAll schedule).run w).2.2 = .ok (.loaded (l.result schedule raws).objects) := by
  obtain ⟨hmem, hcontents, hresult⟩ := run_loadEagerly_of_succeeds hw h
  rw [run_loadAll hwrite hexcluded, hresult]
  exact ⟨hmem, hcontents, rfl⟩

theorem succeeds_of_loaded (hwrite : l.type.writeBack = true)
    (hexcluded : l.type.excludedFromLoad = false) (hw : w.InMemory) {objects : List Object}
    (h : ((l.loadAll schedule).run w).2.2 = .ok (.loaded objects)) :
    ∃ raws c, l.Succeeds schedule w raws c ∧ objects = (l.result schedule raws).objects := by
  rw [run_loadAll hwrite hexcluded] at h
  cases hr : ((l.loadEagerly schedule).run w).2 with
  | error i =>
    rw [hr] at h
    cases h
  | ok r =>
    rw [hr] at h
    obtain rfl := Full.loaded.inj (Except.ok.inj h)
    obtain ⟨raws, c, hsucceeds, rfl⟩ := succeeds_of_run_loadEagerly hw hr
    exact ⟨raws, c, hsucceeds, rfl⟩

theorem report_loadAll_of_succeeds (hwrite : l.type.writeBack = true)
    (hexcluded : l.type.excludedFromLoad = false) (hw : w.InMemory)
    (h : l.Succeeds schedule w raws c) :
    ((l.loadAll schedule).run w).2.1 = some (l.result schedule raws).report := by
  rw [run_loadAll hwrite hexcluded, (run_loadEagerly_of_succeeds hw h).2.2]

theorem run_loadAll_of_excluded (hexcluded : l.type.excludedFromLoad = true) (schedule : Schedule)
    (w : World) :
    (l.loadAll schedule).run w = (w, none, .ok (.loaded [])) := by
  simp only [loadAll, hexcluded, if_true]
  rfl

end Loader

end Load

end StoredObjects
