import Mathlib.Data.List.Nodup
import StoredObjects.Proofs.Collection.Keyed
import StoredObjects.Proofs.Load.Eager

/-! # Collections on their way to the current shape

Loads bring a collection to the current shape piece by piece: some documents have been exchanged for
their current forms, and the others are as they were at first. Which documents have been exchanged
determines the collection. A load that meets such a collection finds every document, in one form or
the other, makes the same objects of both, and exchanges those it wants that are still out of date.
-/

namespace StoredObjects

namespace Load

variable {Object : Type}

/-- Every document has a current form, with an object, a routing value and an identity. The
identities of the current forms differ, and each is that of the document itself or not taken. -/
structure Servable (t : ObjectType) (converter : Converter Object) (c : Collection) : Prop where
  keyed : c.Keyed
  upgrade : ∀ d ∈ c.documents, t.upgrade d = .ok (t.latest d)
  object : ∀ d ∈ c.documents, ∃ object, converter.toObject (t.latest d) = .ok object
  routed : ∀ d ∈ c.documents, (t.routing.value? (t.latest d)).isSome = true
  identified : ∀ d ∈ c.documents, ∃ k, (t.latest d).key? = some k
  apart : ∀ d ∈ c.documents, ∀ e ∈ c.documents,
    (t.latest d).key? = (t.latest e).key? → d = e
  free : ∀ d ∈ c.documents, ∀ k, (t.latest d).key? = some k →
    d.key? = some k ∨ c.stored.get? k = none

/-- The current forms of the documents for which `W` holds can take the places of these documents,
whichever of them is exchanged first. -/
structure Movable (t : ObjectType) (c : Collection) (W : Document → Prop) : Prop where
  identified : ∀ d ∈ c.documents, W d → ∃ k, (t.latest d).key? = some k
  apart : ∀ d ∈ c.documents, W d → ∀ e ∈ c.documents, W e →
    (t.latest d).key? = (t.latest e).key? → d = e
  free : ∀ d ∈ c.documents, W d → ∀ k, (t.latest d).key? = some k →
    d.key? = some k ∨ c.stored.get? k = none

theorem Servable.movable {t : ObjectType} {converter : Converter Object} {c : Collection}
    (hs : Servable t converter c) (W : Document → Prop) : Movable t c W := by
  constructor
  · intro d hd _
    exact hs.identified d hd
  · intro d hd _ e he _
    exact hs.apart d hd e he
  · intro d hd _
    exact hs.free d hd

/-- The collection `c'` holds the current forms of the documents of `c` for which `S` holds, and the
others as they are. -/
structure Upgraded (t : ObjectType) (c : Collection) (S : Document → Prop) (c' : Collection) :
    Prop where
  keyed : c'.Keyed
  name : c'.name = c.name
  mem : ∀ e, e ∈ c'.documents ↔
    ∃ d ∈ c.documents, S d ∧ e = t.latest d ∨ ¬ S d ∧ e = d

section Upgraded

variable {t : ObjectType} {c c' c'' : Collection} {S T W : Document → Prop} {d : Document}

theorem upgraded_refl (hc : c.Keyed) : Upgraded t c (fun _ => False) c :=
  ⟨hc, rfl, fun e => by simp⟩

/-- Where the current form is the document itself, it does not matter whether it was exchanged. -/
theorem Upgraded.congr (h : Upgraded t c S c')
    (hST : ∀ d ∈ c.documents, (S d ↔ T d) ∨ t.latest d = d) : Upgraded t c T c' := by
  refine ⟨h.keyed, h.name, fun e => (h.mem e).trans (exists_congr fun d => ?_)⟩
  refine and_congr_right fun hd => ?_
  rcases hST d hd with hiff | hsame
  · rw [hiff]
  · rw [hsame]
    by_cases hS : S d <;> by_cases hT : T d <;> simp [hS, hT]

/-- Which documents were exchanged determines the collection. -/
theorem Upgraded.unique (h : Upgraded t c S c') (h' : Upgraded t c S c'') : c' = c'' :=
  h.keyed.ext h'.keyed (h.name.trans h'.name.symm) fun e => (h.mem e).trans (h'.mem e).symm

/-- The current form of one document is no other document of the collection. -/
theorem Movable.latest_ne {e : Document} (hm : Movable t c W) (hc : c.Keyed)
    (hd : d ∈ c.documents) (hW : W d) (he : e ∈ c.documents) (hne : d ≠ e) : t.latest d ≠ e := by
  intro heq
  obtain ⟨k, hk⟩ := hm.identified d hd hW
  have hek : e.key? = some k := heq ▸ hk
  rcases hm.free d hd hW k hk with hown | hfree
  · exact hne (hc.eq_of_key?_eq hd he (hown.trans hek.symm))
  · exact hc.get?_eq_none_iff.mp hfree e he hek

section Movable

variable (hc : c.Keyed) (hm : Movable t c W) (h : Upgraded t c S c')
  (hSW : ∀ d ∈ c.documents, S d → W d)
include hc hm h hSW

theorem Upgraded.exchange (hd : d ∈ c.documents) (hW : W d) (hS : ¬ S d) :
    ∃ c'', c'.replace d (t.latest d) = .ok c'' ∧
      Upgraded t c (fun e => S e ∨ e = d) c'' := by
  obtain ⟨k, hk⟩ := hm.identified d hd hW
  have hstored : d ∈ c'.documents := (h.mem d).mpr ⟨d, hd, Or.inr ⟨hS, rfl⟩⟩
  have hfree : d.key? = some k ∨ c'.stored.get? k = none := by
    refine (hm.free d hd hW k hk).imp id fun hnone => h.keyed.get?_eq_none_iff.mpr ?_
    intro e he hek
    obtain ⟨d', hd', ⟨hS', rfl⟩ | ⟨-, rfl⟩⟩ := (h.mem e).mp he
    · exact hS (hm.apart d' hd' (hSW d' hd' hS') d hd hW (hek.trans hk.symm) ▸ hS')
    · exact hc.get?_eq_none_iff.mp hnone e hd' hek
  obtain ⟨c'', hreplace, hexchanged⟩ := h.keyed.replace hstored hk hfree
  refine ⟨c'', hreplace, hexchanged.keyed, hexchanged.name.trans h.name, fun e => ?_⟩
  rw [hexchanged.mem]
  constructor
  · rintro (rfl | ⟨he, hne⟩)
    · exact ⟨d, hd, Or.inl ⟨Or.inr rfl, rfl⟩⟩
    · obtain ⟨d', hd', ⟨hS', rfl⟩ | ⟨hS', rfl⟩⟩ := (h.mem e).mp he
      · exact ⟨d', hd', Or.inl ⟨Or.inl hS', rfl⟩⟩
      · exact ⟨e, hd', Or.inr ⟨fun hor => hor.elim hS' hne, rfl⟩⟩
  · rintro ⟨d', hd', ⟨hS' | rfl, rfl⟩ | ⟨hno, rfl⟩⟩
    · have hne : d' ≠ d := fun heq => hS (heq ▸ hS')
      exact Or.inr ⟨(h.mem _).mpr ⟨d', hd', Or.inl ⟨hS', rfl⟩⟩,
        hm.latest_ne hc hd' (hSW d' hd' hS') hd hne⟩
    · exact Or.inl rfl
    · have hS' : ¬ S e := fun hS' => hno (Or.inl hS')
      exact Or.inr ⟨(h.mem e).mpr ⟨e, hd', Or.inr ⟨hS', rfl⟩⟩, fun heq => hno (Or.inr heq)⟩

/-- Documents that are still to be exchanged can be exchanged in any order. -/
theorem Upgraded.rewrite {us : List Upgrade} (hnodup : (us.map Upgrade.old).Nodup)
    (hus : ∀ u ∈ us, u.old ∈ c.documents ∧ W u.old ∧ ¬ S u.old ∧ u.new = t.latest u.old) :
    ∃ c'', c'.rewrite us = .ok c'' ∧
      Upgraded t c (fun e => S e ∨ e ∈ us.map Upgrade.old) c'' := by
  induction us generalizing S c' with
  | nil => exact ⟨c', rfl, by simpa using h⟩
  | cons u us ih =>
    obtain ⟨hd, hW, hS, hnew⟩ := hus u List.mem_cons_self
    obtain ⟨hfresh, hrest⟩ := List.nodup_cons.mp hnodup
    obtain ⟨c₁, hreplace, h₁⟩ := h.exchange hc hm hSW hd hW hS
    obtain ⟨c₂, hrewrite, h₂⟩ := ih h₁ (by
      intro e he hor
      rcases hor with hS' | rfl
      · exact hSW e he hS'
      · exact hW) hrest (by
      intro v hv
      obtain ⟨hvd, hvW, hvS, hvnew⟩ := hus v (List.mem_cons_of_mem _ hv)
      refine ⟨hvd, hvW, fun hor => hor.elim hvS fun heq => hfresh ?_, hvnew⟩
      exact List.mem_map.mpr ⟨v, hv, heq⟩)
    refine ⟨c₂, ?_, h₂.congr fun e _ => Or.inl ?_⟩
    · rw [Collection.rewrite_cons, hnew, hreplace]
      exact hrewrite
    · simp [or_assoc]

open Classical in
theorem Upgraded.documents_perm :
    c'.documents.Perm (c.documents.map fun d => if S d then t.latest d else d) := by
  have hinj : ∀ d ∈ c.documents, ∀ e ∈ c.documents,
      (if S d then t.latest d else d) = (if S e then t.latest e else e) → d = e := by
    intro d hd e he heq
    by_contra hne
    by_cases hSd : S d <;> by_cases hSe : S e <;> simp only [hSd, hSe, if_true, if_false] at heq
    · exact hne (hm.apart d hd (hSW d hd hSd) e he (hSW e he hSe) (congrArg Document.key? heq))
    · exact hm.latest_ne hc hd (hSW d hd hSd) he hne heq
    · exact hm.latest_ne hc he (hSW e he hSe) hd (fun h => hne h.symm) heq.symm
    · exact hne heq
  refine (List.perm_ext_iff_of_nodup h.keyed.nodup_documents ?_).mpr fun e => ?_
  · exact List.Nodup.map_on hinj hc.nodup_documents
  · rw [h.mem, List.mem_map]
    refine exists_congr fun d => and_congr_right fun hd => ?_
    by_cases hS : S d <;> simp [hS, eq_comm]

end Movable

end Upgraded

/-! ## The load of a collection on its way -/

def served (t : ObjectType) (converter : Converter Object) (d : Document) : Option Object :=
  (converter.toObject (t.latest d)).toOption

def Loader.objectOf (l : Loader Object) (d : Document) : Except Halt Object :=
  l.binding.converter.toObject (l.type.latest d)

theorem map_filterMap_served {l : Loader Object} {docs : List Document}
    (h : ∀ d ∈ docs, ∃ object, l.objectOf d = .ok object) :
    (docs.filterMap (served l.type l.binding.converter)).map Except.ok = docs.map l.objectOf := by
  have hsome : ∀ d ∈ docs, (served l.type l.binding.converter d).map Except.ok =
      some (l.objectOf d) := by
    intro d hd
    obtain ⟨object, hobject⟩ := h d hd
    have hserved : served l.type l.binding.converter d = (l.objectOf d).toOption := rfl
    rw [hserved, hobject]
    rfl
  rw [List.map_filterMap, List.filterMap_congr hsome, ← List.filterMap_eq_map]
  rfl

section Load

variable {l : Loader Object} {c c' : Collection} {S : Document → Prop} {owned : Document → Bool}

/-- The filter decides by `owned` over the documents, whatever their form. -/
def Loader.Owns (l : Loader Object) (c : Collection) (owned : Document → Bool) : Prop :=
  ∀ d ∈ c.documents, ∀ object, l.binding.converter.toObject (l.type.latest d) = .ok object →
    l.filter.accepts (l.type.latest d) object = .ok (owned d)

/-- Every document has a current form and an object, and `owned` is what the filter decides. -/
def Loader.Judges (l : Loader Object) (c : Collection) (owned : Document → Bool) : Prop :=
  ∀ d ∈ c.documents, l.type.upgrade d = .ok (l.type.latest d) ∧
    ∃ object, l.binding.converter.toObject (l.type.latest d) = .ok object ∧
      l.filter.accepts (l.type.latest d) object = .ok (owned d)

theorem Servable.judges (hs : Servable l.type l.binding.converter c) (ho : l.Owns c owned) :
    l.Judges c owned := by
  intro d hd
  obtain ⟨object, hobject⟩ := hs.object d hd
  exact ⟨hs.upgrade d hd, object, hobject, ho d hd object hobject⟩

section Judges

variable (hj : l.Judges c owned) (ht : l.type.VersionsFit)
include hj ht

theorem process_form {d e : Document} (hd : d ∈ c.documents) (he : e = l.type.latest d ∨ e = d) :
    ∃ object, served l.type l.binding.converter d = some object ∧
      (l.step l.filter).process e = .ok (if owned d then some ⟨object,
        if e.version < l.type.currentVersion then some ⟨e, l.type.latest d⟩ else none⟩
      else none) := by
  obtain ⟨hlatest, object, hobject, howned⟩ := hj d hd
  have hupgrade : l.type.upgrade e = .ok (l.type.latest d) := by
    rcases he with rfl | rfl
    · exact ObjectType.upgrade_of_upgrade ht hlatest
    · exact hlatest
  refine ⟨object, by simp [served, hobject, Except.toOption], ?_⟩
  exact Step.process_eq_ok_iff.mpr
    ⟨l.type.latest d, object, owned d, hupgrade, hobject, howned, rfl⟩

variable (h : Upgraded l.type c S c')
include h

theorem Upgraded.of_outdated {e : Document} (he : e ∈ c'.documents)
    (hold : e.version < l.type.currentVersion) : e ∈ c.documents ∧ ¬ S e := by
  obtain ⟨d, hd, ⟨-, rfl⟩ | ⟨hS, rfl⟩⟩ := (h.mem e).mp he
  · have := ObjectType.version_of_upgrade ht (hj d hd).1
    omega
  · exact ⟨hd, hS⟩

omit hj ht in
theorem Upgraded.form {e : Document} (he : e ∈ c'.documents) :
    ∃ d ∈ c.documents, e = l.type.latest d ∨ e = d := by
  obtain ⟨d, hd, ⟨-, rfl⟩ | ⟨-, rfl⟩⟩ := (h.mem e).mp he
  · exact ⟨d, hd, Or.inl rfl⟩
  · exact ⟨e, hd, Or.inr rfl⟩

theorem Upgraded.decides : l.Decides c'.documents := by
  intro e he
  obtain ⟨d, hd, hform⟩ := h.form he
  obtain ⟨object, -, hprocess⟩ := process_form hj ht hd hform
  exact ⟨_, hprocess⟩

theorem Upgraded.mem_rewrites (schedule : Schedule) {u : Upgrade} :
    u ∈ l.rewrites schedule c'.documents ↔ u.old ∈ c'.documents ∧
      u.old.version < l.type.currentVersion ∧ owned u.old = true ∧
      u.new = l.type.latest u.old := by
  rw [(Loader.rewrites_perm schedule c'.documents).mem_iff, List.mem_filterMap]
  constructor
  · rintro ⟨e, he, hu⟩
    obtain ⟨rfl, hnew, hold⟩ := Step.of_upgrade? hu
    obtain ⟨hd, -⟩ := h.of_outdated hj ht he hold
    obtain ⟨object, -, hprocess⟩ := process_form hj ht hd (Or.inr rfl)
    refine ⟨he, hold, ?_, (ObjectType.latest_of_upgrade hnew).symm⟩
    by_contra hno
    simp [Step.upgrade?, Step.outcome_of_ok hprocess, hno] at hu
  · rintro ⟨he, hold, howned, hnew⟩
    obtain ⟨hd, -⟩ := h.of_outdated hj ht he hold
    obtain ⟨object, -, hprocess⟩ := process_form hj ht hd (Or.inr rfl)
    refine ⟨u.old, he, ?_⟩
    rw [Step.upgrade?, Step.outcome_of_ok hprocess, howned, ← hnew]
    simp [hold]

end Judges

theorem Step.old_sublist (step : Step Object) (raws : List Document) :
    ((raws.filterMap step.upgrade?).map Upgrade.old).Sublist raws := by
  induction raws with
  | nil => exact .slnil
  | cons raw raws ih =>
    cases hu : step.upgrade? raw with
    | none =>
      rw [List.filterMap_cons_none hu]
      exact ih.cons raw
    | some u =>
      obtain ⟨rfl, -, -⟩ := Step.of_upgrade? hu
      rw [List.filterMap_cons_some hu, List.map_cons]
      exact ih.cons_cons u.old

theorem Loader.nodup_rewrites (schedule : Schedule) {raws : List Document} (hraws : raws.Nodup) :
    ((l.rewrites schedule raws).map Upgrade.old).Nodup := by
  refine (((Loader.rewrites_perm schedule raws).map Upgrade.old).nodup_iff).mpr ?_
  exact hraws.sublist (Step.old_sublist _ raws)

/-- A load of a collection on its way succeeds. It exchanges the documents that it wants, and has
their objects. -/
theorem Upgraded.load_of_movable {W : Document → Prop} (hc : c.Keyed)
    (hm : Movable l.type c W) (hj : l.Judges c owned) (howned : ∀ d, owned d = true → W d)
    (h : Upgraded l.type c S c') (hSW : ∀ d ∈ c.documents, S d → W d) (ht : l.type.VersionsFit)
    (hsource : l.source c' = .ok c'.documents) (schedule : Schedule) {w : World}
    (hw : w.contents l.binding.store = c') :
    ∃ c'', l.Succeeds schedule w c'.documents c'' ∧
      Upgraded l.type c (fun d => S d ∨ owned d = true) c'' ∧
      (l.result schedule c'.documents).objects.Perm
        ((c.documents.filter owned).filterMap (served l.type l.binding.converter)) := by
  obtain ⟨c'', hrewrite, hend⟩ := h.rewrite hc hm hSW
    (Loader.nodup_rewrites (l := l) schedule h.keyed.nodup_documents) (by
      intro u hu
      obtain ⟨hold, hversion, hwanted, hnew⟩ := (h.mem_rewrites hj ht schedule).mp hu
      obtain ⟨hd, hS⟩ := h.of_outdated hj ht hold hversion
      exact ⟨hd, howned _ hwanted, hS, hnew⟩)
  refine ⟨c'', ⟨hw ▸ hsource, h.decides hj ht, hw ▸ hrewrite⟩, hend.congr fun d hd => ?_, ?_⟩
  · -- what is wanted and was not written back now, was exchanged before, or is current anyway
    by_cases hS : S d
    · simp [hS]
    · by_cases hversion : d.version < l.type.currentVersion
      · refine Or.inl ?_
        have hstored : d ∈ c'.documents := (h.mem d).mpr ⟨d, hd, Or.inr ⟨hS, rfl⟩⟩
        simp only [hS, false_or, List.mem_map]
        constructor
        · rintro ⟨u, hu, rfl⟩
          exact ((h.mem_rewrites hj ht schedule).mp hu).2.2.1
        · intro howned
          exact ⟨⟨d, l.type.latest d⟩, (h.mem_rewrites hj ht schedule).mpr
            ⟨hstored, hversion, howned, rfl⟩, rfl⟩
      · refine Or.inr (ObjectType.latest_of_upgrade ?_)
        obtain ⟨-, hhigh⟩ := ObjectType.known_of_upgrade (hj d hd).1
        exact ObjectType.upgrade_of_current (by omega)
  · classical
    refine (Loader.objects_perm schedule c'.documents).trans ?_
    refine ((h.documents_perm hc hm hSW).filterMap _).trans (List.Perm.of_eq ?_)
    rw [List.filterMap_map, List.filterMap_filter]
    refine List.filterMap_congr fun d hd => ?_
    obtain ⟨object, hserved, hprocess⟩ := process_form hj ht hd
      (e := if S d then l.type.latest d else d) (by by_cases hS : S d <;> simp [hS])
    simp only [Function.comp_apply, Step.object?, Step.outcome_of_ok hprocess, hserved]
    cases owned d <;> rfl

theorem Upgraded.load (hs : Servable l.type l.binding.converter c) (ho : l.Owns c owned)
    (h : Upgraded l.type c S c') (ht : l.type.VersionsFit)
    (hsource : l.source c' = .ok c'.documents) (schedule : Schedule) {w : World}
    (hw : w.contents l.binding.store = c') :
    ∃ c'', l.Succeeds schedule w c'.documents c'' ∧
      Upgraded l.type c (fun d => S d ∨ owned d = true) c'' ∧
      (l.result schedule c'.documents).objects.Perm
        ((c.documents.filter owned).filterMap (served l.type l.binding.converter)) :=
  h.load_of_movable hs.keyed (hs.movable fun _ => True) (hs.judges ho) (fun _ _ => trivial)
    (fun _ _ _ => trivial) ht hsource schedule hw

end Load

end Load

end StoredObjects
