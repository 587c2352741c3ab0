import Mathlib.Data.List.Pairwise
import StoredObjects.Proofs.Converter.Matching
import StoredObjects.Proofs.Load.Wanted
import StoredObjects.Proofs.Load.WriteOrder

/-! # Loads by query

A store selects the documents of a query as it holds them, before they are upgraded. A load by query
therefore gives the objects of the documents that meet the query in their stored form. A load of
everything leaves the current forms, so that afterwards a load by query gives the objects of the
documents whose current form meets it. The two agree where upgrades do not show in the query.
-/

namespace StoredObjects

namespace Collection

variable {c c' : Collection} {us : List Upgrade} {f : Document → Document}

theorem Rewritten.documents_perm (h : c.Rewritten us c') (hc : c.Keyed) (hh : c.Holds us)
    (ha : c.Admits us) (hnew : ∀ u ∈ us, u.new = f u.old)
    (hkept : ∀ d ∈ c.documents, d ∉ us.map Upgrade.old → f d = d) :
    c'.documents.Perm (c.documents.map f) := by
  have hmoved : ∀ u ∈ us, ∀ e ∈ c.documents, e ∉ us.map Upgrade.old → u.new ≠ e :=
    fun u hu e he hout heq => hout (ha.room u hu e he (congrArg Document.key? heq.symm))
  have hsymm : Std.Symm fun u v : Upgrade => u.new.key? ≠ v.new.key? := ⟨fun _ _ => Ne.symm⟩
  have hinj : ∀ d ∈ c.documents, ∀ e ∈ c.documents, f d = f e → d = e := by
    intro d hd e he heq
    by_cases hdu : d ∈ us.map Upgrade.old <;> by_cases heu : e ∈ us.map Upgrade.old
    · obtain ⟨u, hu, rfl⟩ := List.mem_map.mp hdu
      obtain ⟨v, hv, rfl⟩ := List.mem_map.mp heu
      by_contra hne
      have hapart := ha.apart.forall hu hv fun huv => hne (huv ▸ rfl)
      exact hapart (by rw [hnew u hu, hnew v hv, heq])
    · obtain ⟨u, hu, rfl⟩ := List.mem_map.mp hdu
      exact absurd ((hnew u hu).trans (heq.trans (hkept e he heu))) (hmoved u hu e he heu)
    · obtain ⟨v, hv, rfl⟩ := List.mem_map.mp heu
      exact absurd ((hnew v hv).trans (heq.symm.trans (hkept d hd hdu))) (hmoved v hv d hd hdu)
    · rwa [hkept d hd hdu, hkept e he heu] at heq
  refine (List.perm_ext_iff_of_nodup h.keyed.nodup_documents
    (List.Nodup.map_on hinj hc.nodup_documents)).mpr fun e => ?_
  rw [h.mem]
  constructor
  · rintro (hnewly | ⟨he, hout⟩)
    · obtain ⟨u, hu, rfl⟩ := List.mem_map.mp hnewly
      exact List.mem_map.mpr ⟨u.old, hh.stored u hu, (hnew u hu).symm⟩
    · exact List.mem_map.mpr ⟨e, he, hkept e he hout⟩
  · intro he
    obtain ⟨d, hd, rfl⟩ := List.mem_map.mp he
    by_cases hdu : d ∈ us.map Upgrade.old
    · obtain ⟨u, hu, rfl⟩ := List.mem_map.mp hdu
      exact Or.inl (List.mem_map.mpr ⟨u, hu, hnew u hu⟩)
    · rw [hkept d hd hdu]
      exact Or.inr ⟨hd, hdu⟩

end Collection

namespace Load

variable {Object : Type}

namespace Loader

variable {l : Loader Object} {c c' : Collection} {w : World} {schedule : Schedule}
  {raws : List Document} {raw : Document} {template : Object} {q : Query}

def fits (l : Loader Object) (q : Query) (object : Object) : Bool :=
  match l.binding.converter.toDocument object with
  | .ok d => q.isMet d
  | .error _ => false

theorem filter_of_not_partitioned (h : l.partition = none) : l.filter = .acceptAll := by
  rw [filter, h]

/-! ## Loads of everything that is read -/

section AcceptAll

variable (hall : l.filter = .acceptAll)
include hall

theorem source_of_acceptAll (c : Collection) : l.source c = .ok c.documents := by
  rw [source, selects, hall]
  rfl

theorem process_of_decides (hraws : l.Decides raws) (hraw : raw ∈ raws) :
    ∃ object, l.type.upgrade raw = .ok (l.type.latest raw) ∧ l.objectOf raw = .ok object ∧
      (l.step l.filter).process raw = .ok (some ⟨object,
        if raw.version < l.type.currentVersion then some ⟨raw, l.type.latest raw⟩ else none⟩) := by
  obtain ⟨r, hr⟩ := hraws raw hraw
  obtain ⟨d, object, b, hupgrade, hobject, hb, rfl⟩ := Step.process_eq_ok_iff.mp hr
  obtain rfl : l.type.latest raw = d := ObjectType.latest_of_upgrade hupgrade
  have hwanted : b = true := by
    change l.filter.accepts _ _ = _ at hb
    rw [hall] at hb
    exact (Except.ok.inj hb).symm
  subst hwanted
  exact ⟨object, hupgrade, hobject, hr⟩

theorem map_objects (hraws : l.Decides raws) (schedule : Schedule) :
    ((l.result schedule raws).objects.map Except.ok).Perm (raws.map l.objectOf) := by
  have hsome : ∀ raw ∈ raws,
      ((l.step l.filter).object? raw).map Except.ok = some (l.objectOf raw) := by
    intro raw hraw
    obtain ⟨object, -, hobject, hprocess⟩ := process_of_decides hall hraws hraw
    rw [Step.object?, Step.outcome_of_ok hprocess, hobject]
    rfl
  refine ((objects_perm schedule raws).map Except.ok).trans (List.Perm.of_eq ?_)
  rw [List.map_filterMap, List.filterMap_congr hsome, ← List.filterMap_eq_map]
  rfl

theorem mem_rewrites_of_decides (hraws : l.Decides raws) {u : Upgrade} :
    u ∈ l.rewrites schedule raws ↔
      u.old ∈ raws ∧ u.old.version < l.type.currentVersion ∧ u.new = l.type.latest u.old := by
  rw [(rewrites_perm schedule raws).mem_iff, List.mem_filterMap]
  constructor
  · rintro ⟨raw, hraw, hu⟩
    obtain ⟨rfl, hnew, hold⟩ := Step.of_upgrade? hu
    exact ⟨hraw, hold, (ObjectType.latest_of_upgrade hnew).symm⟩
  · rintro ⟨hraw, hold, hnew⟩
    obtain ⟨object, -, -, hprocess⟩ := process_of_decides hall hraws hraw
    refine ⟨u.old, hraw, ?_⟩
    rw [Step.upgrade?, Step.outcome_of_ok hprocess, ← hnew]
    simp [hold]

/-- The objects of everything, of which those are kept whose documents meet the query. -/
theorem filter_fits_perm (hraws : l.Decides raws) {objects : List Object}
    (hobjects : (objects.map Except.ok).Perm (raws.map l.objectOf))
    (hfits : ∀ raw ∈ raws, ∀ object, l.objectOf raw = .ok object →
      l.fits q object = q.isMet (l.type.latest raw)) :
    ((objects.filter (l.fits q)).map Except.ok).Perm
      ((raws.filter fun d => q.isMet (l.type.latest d)).map l.objectOf) := by
  let kept : Except Halt Object → Bool := fun r => r.toOption.any (l.fits q)
  have hleft : (objects.filter (l.fits q)).map Except.ok =
      (objects.map Except.ok).filter kept := by
    rw [List.filter_map]
    rfl
  have hright : (raws.map l.objectOf).filter kept =
      (raws.filter fun d => q.isMet (l.type.latest d)).map l.objectOf := by
    rw [List.filter_map]
    refine congrArg _ (List.filter_congr fun raw hraw => ?_)
    obtain ⟨object, -, hobject, -⟩ := process_of_decides hall hraws hraw
    simp only [kept, Function.comp_apply, hobject, Except.toOption, Option.any_some,
      hfits raw hraw object hobject]
  rw [hleft, ← hright]
  exact hobjects.filter kept

theorem documents_of_succeeds (hkeyed : (w.contents l.binding.store).Keyed)
    (h : l.Succeeds schedule w (w.contents l.binding.store).documents c') :
    c'.Keyed ∧
      c'.documents.Perm ((w.contents l.binding.store).documents.map l.type.latest) := by
  have hus : l.Upgrades (w.contents l.binding.store)
      (l.rewrites schedule (w.contents l.binding.store).documents) :=
    upgrades_of_process (.selection h.source) h.decides (rewrites_perm _ _)
  have hholds := hus.holds hkeyed
  obtain ⟨hadmits, -, hrewritten⟩ := hholds.of_rewrite hkeyed h.rewrite
  refine ⟨hrewritten.keyed, hrewritten.documents_perm hkeyed hholds hadmits ?_ ?_⟩
  · intro u hu
    exact ((mem_rewrites_of_decides hall h.decides).mp hu).2.2
  · intro d hd hout
    have hcurrent : ¬ d.version < l.type.currentVersion := fun hold =>
      hout (List.mem_map.mpr ⟨⟨d, l.type.latest d⟩,
        (mem_rewrites_of_decides hall h.decides).mpr ⟨hd, hold, rfl⟩, rfl⟩)
    exact latest_of_current (loadable_iff_decides.mpr h.decides).judges hd hcurrent

end AcceptAll

/-! ## Loads by query -/

theorem of_run_loadLike_eq_ok (hw : w.InMemory)
    (hq : l.binding.converter.toQuery template = .ok q) {r : Result Object}
    (h : ((l.loadLike schedule template).run w).2 = .ok r) :
    l.Decides ((w.contents l.binding.store).select q) ∧
      r = l.result schedule ((w.contents l.binding.store).select q) := by
  rw [run_loadLike hw hq] at h
  by_cases hdecides : l.Decides ((w.contents l.binding.store).select q)
  · refine ⟨hdecides, ?_⟩
    rw [run_loadReading hdecides] at h
    dsimp only at h
    split at h
    · exact (Except.ok.inj h).symm
    · cases h
  · obtain ⟨i, hi⟩ := loadReading_of_not_decides hdecides schedule
    rw [hi] at h
    cases h

theorem run_loadLike_of_rewrite (hw : w.InMemory)
    (hq : l.binding.converter.toQuery template = .ok q)
    (hdecides : l.Decides ((w.contents l.binding.store).select q))
    (hrewrite : (w.contents l.binding.store).rewrite
      (l.rewrites schedule ((w.contents l.binding.store).select q)) = .ok c') :
    ((l.loadLike schedule template).run w).1.contents =
        Function.update w.contents l.binding.store c' ∧
      ((l.loadLike schedule template).run w).2 =
        .ok (l.result schedule ((w.contents l.binding.store).select q)) := by
  have hread := (World.answer_findByQuery hw l.binding.store q).1
  have hrewrite' : ((w.answer l.binding.store (.findByQuery q)).1.contents
      l.binding.store).rewrite (l.rewrites schedule ((w.contents l.binding.store).select q)) =
        .ok c' := by
    rw [hread]
    exact hrewrite
  obtain ⟨-, hcontents, hok⟩ :=
    run_writeBack_of_ok (hw.answer l.binding.store (.findByQuery q)) hrewrite'
  rw [run_loadLike hw hq, run_loadReading hdecides]
  dsimp only
  rw [hok, hcontents, hread]
  exact ⟨rfl, rfl⟩

theorem rewrites_of_current (hcurrent : ∀ d ∈ raws, ¬ d.version < l.type.currentVersion)
    (schedule : Schedule) : l.rewrites schedule raws = [] := by
  refine List.Perm.eq_nil ((rewrites_perm _ _).trans (List.Perm.of_eq ?_))
  refine List.filterMap_eq_nil_iff.mpr fun d hd => Option.eq_none_iff_forall_ne_some.mpr ?_
  intro u hu
  obtain ⟨rfl, -, hold⟩ := Step.of_upgrade? hu
  exact hcurrent _ hd hold

theorem inOrder_eq (l : Loader Object) (raws : List Document) :
    (l.result .inOrder raws).objects = raws.filterMap (l.step l.filter).object? ∧
      l.rewrites .inOrder raws = raws.filterMap (l.step l.filter).upgrade? := by
  have hobjects : (l.result .inOrder raws).objects = (l.outcome .inOrder raws).objects := rfl
  rw [hobjects, rewrites, outcome, Schedule.inOrder, arrange_first, arrange_first,
    objects_map_outcome, upgrades_map_outcome]
  exact ⟨rfl, rfl⟩

/-! ## Loads by query of current forms -/

section Current

variable (hall : l.filter = .acceptAll) (ht : l.type.VersionsFit) (hraws : l.Decides raws)
include hall ht hraws

theorem objectOf_latest (hraw : raw ∈ raws) :
    l.objectOf (l.type.latest raw) = l.objectOf raw := by
  obtain ⟨object, hupgrade, -, -⟩ := process_of_decides hall hraws hraw
  rw [objectOf, ObjectType.latest_of_upgrade (ObjectType.upgrade_of_upgrade ht hupgrade), objectOf]

theorem version_latest (hraw : raw ∈ raws) :
    (l.type.latest raw).version = l.type.currentVersion := by
  obtain ⟨object, hupgrade, -, -⟩ := process_of_decides hall hraws hraw
  exact ObjectType.version_of_upgrade ht hupgrade

theorem decides_latest : l.Decides (raws.map l.type.latest) := by
  intro d hd
  obtain ⟨raw, hraw, rfl⟩ := List.mem_map.mp hd
  obtain ⟨object, hupgrade, hobject, -⟩ := process_of_decides hall hraws hraw
  refine ⟨_, Step.process_eq_ok_iff.mpr ⟨l.type.latest raw, object, true,
    ObjectType.upgrade_of_upgrade ht hupgrade, hobject, ?_, rfl⟩⟩
  change l.filter.accepts _ _ = _
  rw [hall]
  rfl

/-- Where a store holds current forms, a load by query decides by these, and writes nothing. -/
theorem run_loadLike_of_latest (hw : w.InMemory)
    (hq : l.binding.converter.toQuery template = .ok q)
    (hdocuments : (w.contents l.binding.store).documents.Perm (raws.map l.type.latest))
    (schedule : Schedule) :
    ∃ r, ((l.loadLike schedule template).run w).2 = .ok r ∧
      ((l.loadLike schedule template).run w).1.contents = w.contents ∧
      (r.objects.map Except.ok).Perm
        ((raws.filter fun d => q.isMet (l.type.latest d)).map l.objectOf) := by
  have hselected : ((w.contents l.binding.store).select q).Perm
      ((raws.filter fun d => q.isMet (l.type.latest d)).map l.type.latest) :=
    (hdocuments.filter q.isMet).trans (List.Perm.of_eq List.filter_map)
  have hdecides : l.Decides ((w.contents l.binding.store).select q) := fun d hd =>
    decides_latest hall ht hraws d (hdocuments.mem_iff.mp (List.mem_of_mem_filter hd))
  have hcurrent : ∀ d ∈ (w.contents l.binding.store).select q,
      ¬ d.version < l.type.currentVersion := by
    intro d hd
    obtain ⟨raw, hraw, rfl⟩ := List.mem_map.mp (hdocuments.mem_iff.mp (List.mem_of_mem_filter hd))
    rw [version_latest hall ht hraws hraw]
    exact lt_irrefl _
  obtain ⟨hcontents, hresult⟩ := run_loadLike_of_rewrite hw hq hdecides
    (congrArg _ (rewrites_of_current hcurrent schedule))
  refine ⟨_, hresult, hcontents.trans (Function.update_eq_self _ _),
    (map_objects hall hdecides schedule).trans
      ((hselected.map l.objectOf).trans (List.Perm.of_eq ?_))⟩
  rw [List.map_map]
  exact List.map_congr_left fun raw hraw =>
    objectOf_latest hall ht hraws (List.mem_of_mem_filter hraw)

end Current

end Loader

/-- A load by query gives the objects of the documents that meet the query as they are stored. After
a load of everything it gives those of the documents whose current forms do, and writes nothing: the
same objects as before where upgrades do not show in the query, and the objects whose own documents
meet the query where the conversion keeps what the query asks for. -/
theorem query_loads_select_stored_forms (l : Loader Object) {codec : Codec Object}
    {property : String} (hconverter : l.binding.converter = .ofCodec codec property)
    (hpartition : l.partition = none) (hwrite : l.type.writeBack = true)
    (hexcluded : l.type.excludedFromLoad = false) (ht : l.type.VersionsFit) {w : World}
    (hw : w.InMemory) (hkeyed : (w.contents l.binding.store).Keyed) {template : Object} {q : Query}
    (hq : l.binding.converter.toQuery template = .ok q) (schedule schedule' : Schedule)
    {objects : List Object} {r : Result Object}
    (hloaded : ((l.loadAll schedule).run w).2.2 = .ok (.loaded objects))
    (hlike : ((l.loadLike schedule' template).run w).2 = .ok r) :
    let documents := (w.contents l.binding.store).documents
    let w' := ((l.loadAll schedule).run w).1
    (objects.map Except.ok).Perm (documents.map l.objectOf) ∧
    (r.objects.map Except.ok).Perm ((documents.filter q.isMet).map l.objectOf) ∧
    ∀ schedule'', ∃ r', ((l.loadLike schedule'' template).run w').2 = .ok r' ∧
      ((l.loadLike schedule'' template).run w').1.contents = w'.contents ∧
      (r'.objects.map Except.ok).Perm
        ((documents.filter fun d => q.isMet (l.type.latest d)).map l.objectOf) ∧
      ((∀ d ∈ documents, q.isMet (l.type.latest d) = q.isMet d) →
        r'.objects.Perm r.objects) ∧
      (Converter.Preserves codec property q → r'.objects.Perm (objects.filter (l.fits q))) := by
  intro documents w'
  have hall := Loader.filter_of_not_partitioned hpartition
  have hok : Function.Injective (Except.ok : Object → Except Halt Object) :=
    fun _ _ => Except.ok.inj
  obtain ⟨raws, c', hsucceeds, rfl⟩ := Loader.succeeds_of_loaded hwrite hexcluded hw hloaded
  obtain rfl : documents = raws :=
    Except.ok.inj ((Loader.source_of_acceptAll hall _).symm.trans hsucceeds.source)
  have hdecides := hsucceeds.decides
  obtain ⟨hkeyed', hdocuments⟩ := Loader.documents_of_succeeds hall hkeyed hsucceeds
  obtain ⟨hafter, hcontents, -⟩ := Loader.run_loadAll_of_succeeds hwrite hexcluded hw hsucceeds
  have hstore : w'.contents l.binding.store = c' := by
    rw [hcontents, Function.update_self]
  obtain ⟨hselected, rfl⟩ := Loader.of_run_loadLike_eq_ok hw hq hlike
  have hobjects := Loader.map_objects hall hdecides schedule
  have hbefore := Loader.map_objects hall hselected schedule'
  refine ⟨hobjects, hbefore, fun schedule'' => ?_⟩
  obtain ⟨r', hr', hsame, hlater⟩ := Loader.run_loadLike_of_latest hall ht hdecides hafter hq
    (hstore ▸ hdocuments) schedule''
  refine ⟨r', hr', hsame, hlater, fun hshow => ?_, fun hkeeps => ?_⟩
  · rw [List.filter_congr hshow] at hlater
    exact (List.map_perm_map_iff hok).mp (hlater.trans hbefore.symm)
  · have hfits : ∀ raw ∈ documents, ∀ object, l.objectOf raw = .ok object →
        l.fits q object = q.isMet (l.type.latest raw) := by
      intro raw hraw object hobject
      -- the current form is stored after the load, and has an identity therefore
      have hmem : l.type.latest raw ∈ c'.documents :=
        hdocuments.mem_iff.mpr (List.mem_map_of_mem hraw)
      obtain ⟨k, hk⟩ := hkeyed'.key?_of_mem hmem
      obtain ⟨identity, hidentity, -⟩ := Option.map_eq_some_iff.mp hk
      rw [hconverter] at hq
      rw [Loader.objectOf, hconverter] at hobject
      obtain ⟨form, hform, hmeets⟩ := hkeeps.exists_document hq hidentity hobject
      rw [Loader.fits, hconverter, hform]
      exact hmeets
    have hkept := Loader.filter_fits_perm hall hdecides hobjects hfits
    exact (List.map_perm_map_iff hok).mp (hlater.trans hkept.symm)

/-! The fruits of a market, which get a grade when they are loaded. -/

def gradingAll : Loader Value := ⟨fruits, {}, none⟩

theorem eq_or_eq_of_mem_market {d : Document} (hd : d ∈ (market.contents "fruits").documents) :
    d = grownIn "Peru" "apple" ∨ d = grownIn "Chile" "pear" := by
  rw [documents_market] at hd
  exact List.mem_pair.mp hd

theorem decides_market : gradingAll.Decides (market.contents "fruits").documents := by
  intro d hd
  rcases eq_or_eq_of_mem_market hd with rfl | rfl <;> exact ⟨_, rfl⟩

/-- Grading does not show in a query for an origin. -/
theorem chilean_fruits_before_and_after : ∃ (objects : List Value) (r r' : Result Value),
    ((gradingAll.loadAll .inOrder).run market).2.2 = .ok (.loaded objects) ∧
      ((gradingAll.loadLike .inOrder (.object [("origin", .text "Chile")])).run market).2 = .ok r ∧
      ((gradingAll.loadLike .inOrder (.object [("origin", .text "Chile")])).run
        ((gradingAll.loadAll .inOrder).run market).1).2 = .ok r' ∧
      r'.objects.Perm r.objects ∧ r'.objects.Perm [gradedPear] := by
  have hfits : gradingAll.type.VersionsFit := by
    unfold ObjectType.VersionsFit
    decide
  let q : Query := ⟨.ofList [("origin", .text "Chile")]⟩
  have hq : gradingAll.binding.converter.toQuery (.object [("origin", .text "Chile")]) = .ok q :=
    rfl
  have hloaded := (Loader.run_loadAll_of_succeeds rfl rfl inMemory_market
    ⟨rfl, decides_market, (congrArg _ (gradingAll.inOrder_eq _).2).trans rfl⟩).2.2
  have hlike := (Loader.run_loadLike_of_rewrite inMemory_market hq
    (fun d hd => decides_market d (List.mem_of_mem_filter hd))
    ((congrArg _ (gradingAll.inOrder_eq _).2).trans rfl)).2
  obtain ⟨-, -, hlater⟩ := query_loads_select_stored_forms gradingAll rfl rfl rfl rfl
    hfits inMemory_market keyed_market hq .inOrder .inOrder hloaded hlike
  obtain ⟨r', hr', -, -, hsame, hkept⟩ := hlater .inOrder
  have hbefore := hsame fun d hd => by
    rcases eq_or_eq_of_mem_market hd with rfl | rfl <;> rfl
  have hselected := hkept ⟨Codec.keeps_value "name", fun c hc => by
    obtain rfl := List.mem_singleton.mp hc
    exact ⟨by decide, Or.inr (Codec.keeps_value "origin")⟩⟩
  rw [(gradingAll.inOrder_eq _).1] at hselected
  exact ⟨_, _, r', hloaded, hlike, hr', hbefore, hselected⟩

/-- A load by query gives the objects of everything whose documents meet the query. -/
def Loader.SelectsObjects (l : Loader Object) (w : World) (template : Object) : Prop :=
  ∀ schedule schedule' objects r q, l.binding.converter.toQuery template = .ok q →
    ((l.loadAll schedule).run w).2.2 = .ok (.loaded objects) →
    ((l.loadLike schedule' template).run w).2 = .ok r → r.objects.Perm (objects.filter (l.fits q))

theorem Loader.not_selectsObjects {l : Loader Object} (hpartition : l.partition = none)
    (hwrite : l.type.writeBack = true) (hexcluded : l.type.excludedFromLoad = false) {w : World}
    (hw : w.InMemory) {template : Object} {q : Query}
    (hq : l.binding.converter.toQuery template = .ok q)
    (hdecides : l.Decides (w.contents l.binding.store).documents)
    (hall : ∃ c', (w.contents l.binding.store).rewrite
      ((w.contents l.binding.store).documents.filterMap (l.step l.filter).upgrade?) = .ok c')
    (hlike : ∃ c', (w.contents l.binding.store).rewrite
      (((w.contents l.binding.store).select q).filterMap (l.step l.filter).upgrade?) = .ok c')
    (hcount : (((w.contents l.binding.store).select q).filterMap (l.step l.filter).object?).length ≠
      (((w.contents l.binding.store).documents.filterMap (l.step l.filter).object?).filter
        (l.fits q)).length) : ¬ l.SelectsObjects w template := by
  intro hselects
  have haccept := Loader.filter_of_not_partitioned hpartition
  obtain ⟨c', hall⟩ := hall
  obtain ⟨c'', hlike⟩ := hlike
  rw [← (l.inOrder_eq _).2] at hall hlike
  have hloaded := (Loader.run_loadAll_of_succeeds hwrite hexcluded hw
    ⟨Loader.source_of_acceptAll haccept _, hdecides, hall⟩).2.2
  have hliked := (Loader.run_loadLike_of_rewrite hw hq
    (fun d hd => hdecides d (List.mem_of_mem_filter hd)) hlike).2
  have hlength := (hselects .inOrder .inOrder _ _ q hq hloaded hliked).length_eq
  rw [(l.inOrder_eq _).1, (l.inOrder_eq _).1] at hlength
  exact hcount hlength

/-! The same fruits after they were graded, and objects that are read with a grade in any case. -/

def gradedIn (origin name : String) : Document :=
  ((grownIn origin name).insert "grade" (.text "A")).setVersion 2

def gradedMarket : World :=
  ⟨TextMap.empty.insert "fruits"
    { collection := ((Collection.empty "fruits").put "\"apple\"" (gradedIn "Peru" "apple")).put
        "\"pear\"" (gradedIn "Chile" "pear")
      supply := fun _ => "" }⟩

theorem inMemory_gradedMarket : gradedMarket.InMemory :=
  World.InMemory.setStore (w := ⟨.empty⟩) (fun _ => ⟨rfl, rfl, rfl⟩) "fruits" ⟨rfl, rfl, rfl⟩

def assumingGrade : Codec Value where
  write := id
  read
    | .object fields => .ok (.ofFields (("grade", .text "A") :: fields))
    | v => .ok v

def assuming : Loader Value where
  binding := ⟨{ fruitType with chain := .empty }, "fruits", "fruits",
    .ofCodec assumingGrade "name"⟩
  settings := {}
  partition := none

/-- A grade is not found before the fruits were graded, nor ever when it is only assumed; the
version of a document is found, and is no part of its object. -/
theorem fruits_asked_in_vain :
    (market.InMemory ∧ (market.contents "fruits").Keyed) ∧
      ¬ gradingAll.SelectsObjects market (.object [("grade", .text "A")]) ∧
      ¬ gradingAll.SelectsObjects gradedMarket (.object [("_formatVersion", .ofNat 2)]) ∧
      ¬ assuming.SelectsObjects market (.object [("grade", .text "A")]) := by
  refine ⟨⟨inMemory_market, keyed_market⟩, ?_, ?_, ?_⟩
  · exact Loader.not_selectsObjects rfl rfl rfl inMemory_market rfl decides_market ⟨_, rfl⟩ ⟨_, rfl⟩
      (by decide)
  · refine Loader.not_selectsObjects rfl rfl rfl inMemory_gradedMarket rfl (fun d hd => ?_)
      ⟨_, rfl⟩ ⟨_, rfl⟩ (by decide)
    have hdocuments : d ∈ [gradedIn "Peru" "apple", gradedIn "Chile" "pear"] := hd
    rcases List.mem_pair.mp hdocuments with rfl | rfl <;> exact ⟨_, rfl⟩
  · refine Loader.not_selectsObjects rfl rfl rfl inMemory_market rfl (fun d hd => ?_)
      ⟨_, rfl⟩ ⟨_, rfl⟩ (by decide)
    rcases eq_or_eq_of_mem_market hd with rfl | rfl <;> exact ⟨_, rfl⟩

end Load

end StoredObjects
