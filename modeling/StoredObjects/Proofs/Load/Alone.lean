import StoredObjects.Proofs.Load.Agreement
import StoredObjects.Proofs.Load.Upgraded

/-! # What a load alone comes to

Where the patches keep identities, what a load writes back finds its place whatever was written
before. Unless a document dies, the order in which the parts of a load move therefore decides
neither whether the load succeeds, nor which objects it gives, nor what it leaves in its store.
-/

namespace StoredObjects

theorem ObjectType.KeepsIdentities.key?_latest {t : ObjectType} (ht : t.KeepsIdentities)
    {d d' : Document} (h : t.upgrade d = .ok d') : (t.latest d).key? = d.key? := by
  rw [ObjectType.latest_of_upgrade h]
  exact congrArg (Option.map Document.keyOf) (ht.upgrade h)

namespace Load

variable {Object : Type}

theorem movable_of_keepsIdentities {t : ObjectType} {c : Collection} (ht : t.KeepsIdentities)
    (hc : c.Keyed) : Movable t c fun d => ∃ d', t.upgrade d = .ok d' := by
  constructor
  · rintro d hd ⟨d', hupgrade⟩
    rw [ht.key?_latest hupgrade]
    exact hc.key?_of_mem hd
  · rintro d hd ⟨d', hupgrade⟩ e he ⟨e', hupgrade'⟩ hkey
    rw [ht.key?_latest hupgrade, ht.key?_latest hupgrade'] at hkey
    obtain ⟨k, hk⟩ := hc.key?_of_mem hd
    exact hc.eq_of_key?_eq hd he hkey
  · rintro d hd ⟨d', hupgrade⟩ k hk
    rw [ht.key?_latest hupgrade] at hk
    exact Or.inl hk

namespace Loader

variable {l : Loader Object} {c : Collection} {w : World} {raws : List Document}
  {objects : List Object} {r : Except Failure (List Object)}

/-- The documents are stored under their keys, the patches keep identities, and no document dies in
work. -/
structure Steady (l : Loader Object) (c : Collection) : Prop where
  keyed : c.Keyed
  keeps : l.type.KeepsIdentities
  alive : ∀ raw ∈ c.documents, (l.step l.filter).process raw ≠ .error .died

theorem source_sublist (h : l.source c = .ok raws) : raws.Sublist c.documents := by
  unfold source selects at h
  split at h
  · obtain ⟨-, rfl⟩ := ownedBy_eq_ok_iff.mp h
    exact List.filter_sublist
  · obtain rfl := Except.ok.inj h
    exact List.Sublist.refl _

/-- The documents that are out of date can be exchanged in any order, and it does not matter in
which. -/
theorem Steady.exists_rewrite (h : l.Steady c) (hsource : l.source c = .ok raws) :
    ∃ c', ∀ schedule, c.rewrite (l.rewrites schedule raws) = .ok c' := by
  have hmovable := movable_of_keepsIdentities h.keeps h.keyed
  have hnodup : raws.Nodup := h.keyed.nodup_documents.sublist (source_sublist hsource)
  have hrewrite : ∀ schedule, ∃ c', c.rewrite (l.rewrites schedule raws) = .ok c' ∧
      Upgraded l.type c (fun d => ∃ u ∈ raws.filterMap (l.step l.filter).upgrade?, u.old = d)
        c' := by
    intro schedule
    obtain ⟨c', hc', hend⟩ := (upgraded_refl h.keyed).rewrite h.keyed hmovable
      (fun _ _ hno => hno.elim) (nodup_rewrites (l := l) schedule hnodup) (by
        intro u hu
        obtain ⟨raw, hraw, hup⟩ := List.mem_filterMap.mp ((rewrites_perm schedule raws).subset hu)
        obtain ⟨rfl, hnew, -⟩ := Step.of_upgrade? hup
        exact ⟨(source_sublist hsource).subset hraw, ⟨_, hnew⟩, not_false,
          (ObjectType.latest_of_upgrade hnew).symm⟩)
    refine ⟨c', hc', hend.congr fun d _ => Or.inl ?_⟩
    rw [false_or, ((rewrites_perm schedule raws).map Upgrade.old).mem_iff, List.mem_map]
  obtain ⟨c', -, hend⟩ := hrewrite .inOrder
  refine ⟨c', fun schedule => ?_⟩
  obtain ⟨c'', hc'', hend'⟩ := hrewrite schedule
  rw [hc'', hend'.unique hend]

theorem Steady.exists_succeeds (h : l.Steady (w.contents l.binding.store))
    (hgives : l.Gives l.filter (w.contents l.binding.store) objects) :
    ∃ raws c', ∀ schedule, l.Succeeds schedule w raws c' := by
  obtain ⟨raws, hsource, hdecides, -⟩ := hgives
  obtain ⟨c', hrewrite⟩ := h.exists_rewrite hsource
  exact ⟨raws, c', fun schedule => ⟨hsource, hdecides, hrewrite schedule⟩⟩

section InMemory

variable (hw : w.InMemory) (hexcluded : l.type.excludedFromLoad = false)
  (hsteady : l.Steady (w.contents l.binding.store))
include hw hexcluded hsteady

/-- A load comes to what the selected documents give, or fails if they give nothing. -/
theorem Yields.tells (h : l.Yields w r) :
    l.Tells l.filter (w.contents l.binding.store) r := by
  cases hwrite : l.type.writeBack with
  | false =>
    have hcollects := (yields_iff_of_lazy hexcluded hwrite).mp h
    have hsound := collectsSound_lazyRun hw (fun raws hsource raw hraw =>
      hsteady.alive raw ((source_sublist hsource).subset hraw)) hcollects
    exact (of_collectsSound_lazyRun hw hsound).1
  | true =>
    obtain ⟨schedule, rfl⟩ := (yields_iff_of_eager hexcluded hwrite).mp h
    cases hresult : ((l.loadEagerly schedule).run w).2 with
    | ok result =>
      obtain ⟨raws, c', hsucceeds, rfl⟩ := succeeds_of_run_loadEagerly hw hresult
      exact ⟨raws, hsucceeds.source, hsucceeds.decides, objects_perm schedule raws⟩
    | error i =>
      intro objects hgives
      obtain ⟨raws, c', hsucceeds⟩ := hsteady.exists_succeeds hgives
      rw [(run_loadEagerly_of_succeeds hw (hsucceeds schedule)).2.2] at hresult
      cases hresult

theorem Steady.exists_yields
    (hgives : l.Gives l.filter (w.contents l.binding.store) objects) :
    ∃ objects', l.Yields w (.ok objects') := by
  cases hwrite : l.type.writeBack with
  | false =>
    have hfit : ((l.lazyRun l.filter).run w).2.Fit := fit_lazyRun hw
    obtain ⟨r, hr⟩ := hfit.exists_collects
    have hyields := (yields_iff_of_lazy hexcluded hwrite).mpr hr
    have htells := hyields.tells hw hexcluded hsteady
    cases r with
    | ok objects' => exact ⟨objects', hyields⟩
    | error e => exact absurd hgives (htells objects)
  | true =>
    obtain ⟨raws, c', hsucceeds⟩ := hsteady.exists_succeeds hgives
    exact ⟨_, .loaded .inOrder
      (run_loadAll_of_succeeds hwrite hexcluded hw (hsucceeds .inOrder)).2.2⟩

theorem Yields.alike {r' : Except Failure (List Object)} (h : l.Yields w r) (h' : l.Yields w r') :
    Alike r r' :=
  (h.tells hw hexcluded hsteady).alike (h'.tells hw hexcluded hsteady)

theorem Yields.perm {objects' : List Object} (h : l.Yields w (.ok objects))
    (hgives : l.Gives l.filter (w.contents l.binding.store) objects') : objects.Perm objects' := by
  obtain ⟨raws, hraws, -, hperm⟩ := h.tells hw hexcluded hsteady
  obtain ⟨raws', hraws', -, hperm'⟩ := hgives
  obtain rfl : raws = raws' := Except.ok.inj (hraws.symm.trans hraws')
  exact hperm.trans hperm'.symm

/-- Where a load can succeed, it leaves the same contents in every order of its moves. -/
theorem Yields.contents_eq (h : l.Yields w (.ok objects)) (schedule schedule' : Schedule) :
    ((l.loadAll schedule).run w).1.contents = ((l.loadAll schedule').run w).1.contents := by
  cases hwrite : l.type.writeBack with
  | false => rw [run_loadAll_of_lazy hexcluded hwrite, run_loadAll_of_lazy hexcluded hwrite]
  | true =>
    have hgives : l.Gives l.filter (w.contents l.binding.store) objects :=
      h.tells hw hexcluded hsteady
    obtain ⟨raws, c', hsucceeds⟩ := hsteady.exists_succeeds hgives
    rw [(run_loadAll_of_succeeds hwrite hexcluded hw (hsucceeds schedule)).2.1,
      (run_loadAll_of_succeeds hwrite hexcluded hw (hsucceeds schedule')).2.1]

end InMemory

end Loader

end Load

end StoredObjects
