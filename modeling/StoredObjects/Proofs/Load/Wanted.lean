import StoredObjects.Proofs.Load.PushDown
import StoredObjects.Proofs.Load.Upgraded
import StoredObjects.Proofs.Replica.Reports

/-! # What a load at once comes to

A load wants the documents whose current forms its filter accepts. Its objects are those of the
wanted documents. The wanted documents that are out of date give way to their current forms, the
others stay, and the report, which the replica keeps, counts them all. Neither the number of workers
nor the order in which they finish shows.
-/

namespace StoredObjects

namespace Load

variable {Object : Type}

namespace Loader

variable {l : Loader Object} {c c' : Collection} {d : Document} {schedule : Schedule}

/-- Whether the filter accepts the current form of a document. -/
def wants (l : Loader Object) (d : Document) : Bool :=
  match l.binding.converter.toObject (l.type.latest d) with
  | .ok object =>
    match l.filter.accepts (l.type.latest d) object with
    | .ok b => b
    | .error _ => false
  | .error _ => false

def renews (l : Loader Object) (d : Document) : Bool :=
  l.wants d && decide (d.version < l.type.currentVersion)

/-- Every document can be upgraded, converted and decided. -/
def Loadable (l : Loader Object) (c : Collection) : Prop :=
  ∀ d ∈ c.documents, ∃ d' object b, l.type.upgrade d = .ok d' ∧
    l.binding.converter.toObject d' = .ok object ∧ l.filter.accepts d' object = .ok b

/-- The collection `c'` holds the current forms of the documents of `c` that are wanted and out of
date, and all others as they are. -/
structure Renewed (l : Loader Object) (c c' : Collection) : Prop where
  keyed : c'.Keyed
  name : c'.name = c.name
  documents : c'.documents.Perm
    (c.documents.map fun d => if l.renews d then l.type.latest d else d)
  /-- Nothing is left under an identity that changed. -/
  vacated : ∀ d ∈ c.documents, l.renews d = true → (l.type.latest d).key? ≠ d.key? →
    ∀ k, d.key? = some k → c'.stored.get? k = none

theorem loadable_iff_decides : l.Loadable c ↔ l.Decides c.documents := by
  constructor
  · intro h d hd
    obtain ⟨d', object, b, hupgrade, hobject, hb⟩ := h d hd
    exact ⟨_, Step.process_eq_ok_iff.mpr ⟨d', object, b, hupgrade, hobject, hb, rfl⟩⟩
  · intro h d hd
    obtain ⟨r, hr⟩ := h d hd
    obtain ⟨d', object, b, hupgrade, hobject, hb, -⟩ := Step.process_eq_ok_iff.mp hr
    exact ⟨d', object, b, hupgrade, hobject, hb⟩

theorem Loadable.judges (h : l.Loadable c) : l.Judges c l.wants := by
  intro d hd
  obtain ⟨d', object, b, hupgrade, hobject, hb⟩ := h d hd
  obtain rfl : l.type.latest d = d' := ObjectType.latest_of_upgrade hupgrade
  refine ⟨hupgrade, object, hobject, ?_⟩
  simp only [wants, hobject, hb]

theorem latest_of_current (hj : l.Judges c l.wants) (hd : d ∈ c.documents)
    (h : ¬ d.version < l.type.currentVersion) : l.type.latest d = d := by
  apply ObjectType.latest_of_upgrade
  apply ObjectType.upgrade_of_current
  have hknown := (ObjectType.known_of_upgrade (hj d hd).1).2
  omega

theorem renewed_of_upgraded (hc : c.Keyed) (hj : l.Judges c l.wants)
    (hm : Movable l.type c fun d => l.wants d = true)
    (h : Upgraded l.type c (fun d => l.wants d = true) c') : l.Renewed c c' := by
  constructor
  · exact h.keyed
  · exact h.name
  · classical
    refine (h.documents_perm hc hm fun _ _ hwants => hwants).trans (List.Perm.of_eq ?_)
    apply List.map_congr_left
    intro d hd
    by_cases hwants : l.wants d = true <;>
      by_cases hold : d.version < l.type.currentVersion <;> simp [renews, hwants, hold]
    exact latest_of_current hj hd hold
  · intro d hd hrenews hmoved k hk
    have hwants : l.wants d = true := (Bool.and_eq_true_iff.mp hrenews).1
    apply h.keyed.get?_eq_none_iff.mpr
    intro e he hek
    obtain ⟨d', hd', ⟨hwants', rfl⟩ | ⟨hkept, rfl⟩⟩ := (h.mem e).mp he
    · rcases hm.free d' hd' hwants' k hek with hown | hfree
      · obtain rfl := hc.eq_of_key?_eq hd' hd (hown.trans hk.symm)
        exact hmoved (hek.trans hk.symm)
      · exact hc.get?_eq_none_iff.mp hfree d hd hk
    · obtain rfl := hc.eq_of_key?_eq hd' hd (hek.trans hk.symm)
      exact hkept hwants

theorem length_upgrades (hj : l.Judges c l.wants) (ht : l.type.VersionsFit) (schedule : Schedule) :
    (l.outcome schedule c.documents).upgrades.length = c.documents.countP l.renews := by
  rw [outcome, upgrades_map_outcome, ((arrange_perm _ _ _ _).filterMap _).length_eq,
    List.length_filterMap_eq_countP]
  apply List.countP_congr
  intro d hd
  obtain ⟨object, -, hprocess⟩ := process_form hj ht hd (Or.inr rfl)
  rw [Step.upgrade?, Step.outcome_of_ok hprocess]
  by_cases hwants : l.wants d = true <;>
    by_cases hold : d.version < l.type.currentVersion <;> simp [renews, hwants, hold]

theorem read_outcome (l : Loader Object) (schedule : Schedule) (raws : List Document) :
    (l.outcome schedule raws).read = raws.length := by
  rw [Outcome.read, outcome, List.length_map, (arrange_perm _ _ _ _).length_eq]

theorem length_objects_le (l : Loader Object) (schedule : Schedule) (raws : List Document) :
    (l.outcome schedule raws).objects.length ≤ raws.length := by
  rw [(objects_perm schedule raws).length_eq]
  exact List.length_filterMap_le _ _

/-- A load of documents that can all be loaded, and that can take the places of their old forms
where they are wanted, succeeds. -/
theorem run_loadAll_of_loadable (l : Loader Object) (hwrite : l.type.writeBack = true)
    (hrouted : l.type.routed = false) (hexcluded : l.type.excludedFromLoad = false)
    (ht : l.type.VersionsFit) {w : World} (hw : w.InMemory)
    (hkeyed : (w.contents l.binding.store).Keyed)
    (hload : l.Loadable (w.contents l.binding.store))
    (hmove : Movable l.type (w.contents l.binding.store) fun d => l.wants d = true)
    (schedule : Schedule) :
    let documents := (w.contents l.binding.store).documents
    ∃ (objects : List Object) (report : Report) (c' : Collection),
      ((l.loadAll schedule).run w).2 = (some report, .ok (.loaded objects)) ∧
      (objects.map Except.ok).Perm ((documents.filter l.wants).map l.objectOf) ∧
      ((l.loadAll schedule).run w).1.contents = Function.update w.contents l.binding.store c' ∧
      l.Renewed (w.contents l.binding.store) c' ∧
      report.typeName = l.type.name ∧ report.read = documents.length ∧
      report.loaded = objects.length ∧ report.loaded + report.filtered = report.read ∧
      report.patched = documents.countP l.renews ∧
      report.writtenBack = documents.countP l.renews := by
  intro documents
  have hj := hload.judges
  obtain ⟨c', hsucceeds, hend, hobjects⟩ := (upgraded_refl hkeyed).load_of_movable hkeyed hmove hj
    (fun _ h => h) (fun _ _ h => h.elim) ht (Loader.source_of_not_routed hrouted) schedule rfl
  obtain ⟨-, hcontents, hloaded⟩ := Loader.run_loadAll_of_succeeds hwrite hexcluded hw hsucceeds
  have hreport := Loader.report_loadAll_of_succeeds hwrite hexcluded hw hsucceeds
  have hread := l.read_outcome schedule documents
  have hle := l.length_objects_le schedule documents
  have hupgrades := Loader.length_upgrades hj ht schedule
  refine ⟨_, _, c', Prod.ext hreport hloaded, ?_, hcontents, ?_, rfl, hread, rfl, ?_, hupgrades,
    hupgrades⟩
  · refine (hobjects.map Except.ok).trans (List.Perm.of_eq (map_filterMap_served ?_))
    intro d hd
    obtain ⟨-, object, hobject, -⟩ := hj d (List.mem_of_mem_filter hd)
    exact ⟨object, hobject⟩
  · apply Loader.renewed_of_upgraded hkeyed hj hmove
    exact hend.congr fun d _ => Or.inl (by simp)
  · change (l.outcome schedule documents).objects.length +
      ((l.outcome schedule documents).read - (l.outcome schedule documents).objects.length) =
        (l.outcome schedule documents).read
    omega

end Loader

/-- A load of documents that can all be loaded, and that can take the places of their old forms
where they are wanted, succeeds. It has the objects of the wanted documents, exchanges those of them
that are out of date, and touches nothing else. Its counts are the last report of the type then; the
reports of other types stay. -/
theorem load_renews_wanted {r : Replica Object} {name : String} {l : Loader Object}
    (hl : r.loader name = .ok l) (hwrite : l.type.writeBack = true)
    (hrouted : l.type.routed = false) (hexcluded : l.type.excludedFromLoad = false)
    (ht : l.type.VersionsFit) {w : World} (hw : w.InMemory)
    (hkeyed : (w.contents l.binding.store).Keyed)
    (hload : l.Loadable (w.contents l.binding.store))
    (hmove : Movable l.type (w.contents l.binding.store) fun d => l.wants d = true)
    (schedule : Schedule) :
    let documents := (w.contents l.binding.store).documents
    let after := (r.loadAll schedule name).run w
    ∃ (objects : List Object) (report : Report) (c' : Collection),
      after.2.2 = .ok (.loaded objects) ∧
      (objects.map Except.ok).Perm ((documents.filter l.wants).map l.objectOf) ∧
      after.1.contents = Function.update w.contents l.binding.store c' ∧
      l.Renewed (w.contents l.binding.store) c' ∧
      after.2.1.lastReport? name = some report ∧
      (∀ other, other ≠ name → after.2.1.lastReport? other = r.lastReport? other) ∧
      report.typeName = name ∧ report.read = documents.length ∧
      report.loaded = objects.length ∧ report.loaded + report.filtered = report.read ∧
      report.patched = documents.countP l.renews ∧
      report.writtenBack = documents.countP l.renews := by
  intro documents after
  obtain ⟨objects, report, c', hloaded, hobjects, hcontents, hrenewed, hname, hcounts⟩ :=
    l.run_loadAll_of_loadable hwrite hrouted hexcluded ht hw hkeyed hload hmove schedule
  obtain ⟨hworld, hresult, hlast, hothers⟩ := Replica.reported_loadAll hl hloaded hname
  refine ⟨objects, report, c', hresult, hobjects, ?_, hrenewed, hlast, hothers,
    hname.trans (Replica.name_of_loader hl), hcounts⟩
  rw [hworld]
  exact hcontents

/-! Fruits that get another identity when they are upgraded. -/

def labelling : Patch where
  fromVersion := 1
  description := none
  body := fun d => match d.identity? with
    | some v => (d.setIdentity (.array [.text "fruit", v]), .ok ())
    | none => (d, .ok ())

def labelled : Loader Value := onSecond
  { fruitType with routing := ⟨"origin"⟩, chain := ⟨[labelling], rfl⟩ }

theorem keyed_market : (market.contents "fruits").Keyed := by
  apply Collection.Keyed.put
  · apply Collection.Keyed.put
    · exact Collection.keyed_empty "fruits"
    · rfl
  · rfl

theorem documents_market :
    (market.contents "fruits").documents = [grownIn "Peru" "apple", grownIn "Chile" "pear"] := rfl

theorem loadable_labelled : labelled.Loadable (market.contents "fruits") := by
  intro d hd
  rw [documents_market] at hd
  rcases List.mem_pair.mp hd with rfl | rfl <;> exact ⟨_, _, _, rfl, rfl, rfl⟩

/-- Only the pear is wanted on the second of two processes, and nothing is stored under its new
identity. -/
theorem movable_labelled :
    Movable labelled.type (market.contents "fruits") fun d => labelled.wants d = true := by
  have hpear : ∀ d ∈ (market.contents "fruits").documents, labelled.wants d = true →
      d = grownIn "Chile" "pear" := by
    intro d hd hwants
    rw [documents_market] at hd
    rcases List.mem_pair.mp hd with rfl | rfl
    · cases hwants
    · rfl
  constructor
  · intro d hd hwants
    obtain rfl := hpear d hd hwants
    exact ⟨_, rfl⟩
  · intro d hd hwants e he hwants' _
    exact (hpear d hd hwants).trans (hpear e he hwants').symm
  · intro d hd hwants k hk
    obtain rfl := hpear d hd hwants
    obtain rfl := Option.some.inj hk
    exact Or.inr rfl

def labellingReplica : Replica Value where
  settings := { partition := some ⟨2, 2⟩ }
  registry := ⟨[labelled.type]⟩
  bindings := [labelled.binding]
  triage := ⟨.rethrowTransient, []⟩

/-- The pear moves to its new identity, and the apple of the other process stays. -/
theorem labelled_pear_moves :
    let after := (labellingReplica.loadAll .inOrder "Fruit").run market
    ∃ (objects : List Value) (report : Report) (c' : Collection),
      after.2.2 = .ok (.loaded objects) ∧
      after.1.contents = Function.update market.contents "fruits" c' ∧
      labelled.Renewed (market.contents "fruits") c' ∧ c'.stored.get? "\"pear\"" = none ∧
      after.2.1.lastReport? "Fruit" = some report ∧ report.read = 2 ∧ report.patched = 1 := by
  intro after
  have hfits : labelled.type.VersionsFit := by
    unfold ObjectType.VersionsFit
    decide
  have hl : labellingReplica.loader "Fruit" = .ok labelled := rfl
  obtain ⟨objects, report, c', hloaded, -, hcontents, hrenewed, hlast, -, -, hread, -, -,
    hpatched, -⟩ := load_renews_wanted hl rfl rfl rfl hfits inMemory_market keyed_market
      loadable_labelled movable_labelled .inOrder
  have hmoved : (labelled.type.latest (grownIn "Chile" "pear")).key? ≠
      (grownIn "Chile" "pear").key? := by decide
  refine ⟨objects, report, c', hloaded, hcontents, hrenewed, ?_, hlast, hread, hpatched⟩
  exact hrenewed.vacated (grownIn "Chile" "pear") (List.mem_pair.mpr (Or.inr rfl)) rfl hmoved _ rfl

end Load

end StoredObjects
