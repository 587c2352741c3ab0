import StoredObjects.Proofs.Load.Arrangement
import StoredObjects.Proofs.Load.Eager
import StoredObjects.Proofs.Load.Reading
import StoredObjects.Proofs.Routing.Ownership

/-! # Selection by the store

A type can leave the selection of a partition to the store, which sees documents as they were
stored. Whether an object is wanted is decided on the current form of its document. Both selections
come to the same objects exactly when the store can decide over every document and keeps each one
whose current form belongs to the partition, which is so when the patches keep routing values.
-/

namespace StoredObjects

namespace Load

variable {Object : Type}

namespace Loader

/-- What a full load can come to for a reader of all its objects. -/
inductive Yields (l : Loader Object) (w : World) : Except Failure (List Object) → Prop where
  | failed (schedule : Schedule) {e : Failure} (h : ((l.loadAll schedule).run w).2.2 = .error e) :
      Yields l w (.error e)
  | loaded (schedule : Schedule) {objects : List Object}
      (h : ((l.loadAll schedule).run w).2.2 = .ok (.loaded objects)) : Yields l w (.ok objects)
  | streamed (schedule : Schedule) {stream : Program (Stream Object)}
      {r : Except Failure (List Object)} (h : ((l.loadAll schedule).run w).2.2 = .ok (.lazy stream))
      (hread : (stream.run ((l.loadAll schedule).run w).1).2.Collects r) : Yields l w r

variable {l : Loader Object} {w : World} {raws : List Document} {objects : List Object}
  {r : Except Failure (List Object)}

/-! ## What it takes to succeed -/

theorem yields_iff_of_excluded (hexcluded : l.type.excludedFromLoad = true) :
    l.Yields w r ↔ r = .ok [] := by
  constructor
  · intro h
    cases h with
    | failed schedule h =>
      rw [run_loadAll_of_excluded hexcluded] at h
      cases h
    | loaded schedule h =>
      rw [run_loadAll_of_excluded hexcluded] at h
      cases h
      rfl
    | streamed schedule h hread =>
      rw [run_loadAll_of_excluded hexcluded] at h
      cases h
  · intro h
    subst h
    apply Yields.loaded .inOrder
    rw [run_loadAll_of_excluded hexcluded]

theorem run_loadAll_of_lazy (hexcluded : l.type.excludedFromLoad = false)
    (hwrite : l.type.writeBack = false) (schedule : Schedule) (w : World) :
    (l.loadAll schedule).run w = (w, none, .ok (.lazy l.stream)) := by
  simp only [loadAll, hexcluded, hwrite, Bool.false_eq_true, if_false, Bool.not_false, if_true]
  rfl

theorem yields_iff_of_lazy (hexcluded : l.type.excludedFromLoad = false)
    (hwrite : l.type.writeBack = false) :
    l.Yields w r ↔ (l.stream.run w).2.Collects r := by
  constructor
  · intro h
    cases h with
    | failed schedule h =>
      rw [run_loadAll_of_lazy hexcluded hwrite] at h
      cases h
    | loaded schedule h =>
      rw [run_loadAll_of_lazy hexcluded hwrite] at h
      cases h
    | streamed schedule h hread =>
      rw [run_loadAll_of_lazy hexcluded hwrite] at h hread
      cases h
      exact hread
  · intro h
    have hrun := run_loadAll_of_lazy hexcluded hwrite .inOrder w
    refine Yields.streamed .inOrder (congrArg (fun result => result.2.2) hrun) ?_
    rw [hrun]
    exact h

theorem yields_iff_of_eager (hexcluded : l.type.excludedFromLoad = false)
    (hwrite : l.type.writeBack = true) :
    l.Yields w r ↔ ∃ schedule, r = (((l.loadEagerly schedule).run w).2.map Result.objects).mapError
      l.failure := by
  have hrun := fun schedule => run_loadAll hwrite hexcluded schedule w
  constructor
  · intro h
    cases h with
    | failed schedule h =>
      refine ⟨schedule, ?_⟩
      rw [hrun] at h
      cases hr : ((l.loadEagerly schedule).run w).2 <;> rw [hr] at h <;> cases h
      rfl
    | loaded schedule h =>
      refine ⟨schedule, ?_⟩
      rw [hrun] at h
      cases hr : ((l.loadEagerly schedule).run w).2 <;> rw [hr] at h <;> cases h
      rfl
    | streamed schedule h hread =>
      rw [hrun] at h
      cases hr : ((l.loadEagerly schedule).run w).2 <;> rw [hr] at h <;> cases h
  · rintro ⟨schedule, rfl⟩
    cases hr : ((l.loadEagerly schedule).run w).2 with
    | ok result =>
      apply Yields.loaded schedule
      rw [hrun, hr]
    | error i =>
      apply Yields.failed schedule
      rw [hrun, hr]

theorem run_lazyRun_eq (filter : Routing.Filter Object) (w : World) :
    (l.lazyRun filter).run w = (((l.openSource filter).run w).1,
      match ((l.openSource filter).run w).2 with
      | .ok reading => Stream.opened (l.step filter) (max l.settings.workers 1)
          (max l.settings.outputCapacity 1) reading
      | .error e => Stream.unopened (l.step filter) (max l.settings.workers 1)
          (max l.settings.outputCapacity 1) e) := by
  unfold lazyRun
  rw [Program.bind_eq, Program.run_bind]
  cases ((l.openSource filter).run w).2 <;> rfl

theorem run_lazyRun (hw : w.InMemory) (filter : Routing.Filter Object) :
    ((l.lazyRun filter).run w).1.InMemory ∧
      ((l.lazyRun filter).run w).1.contents = w.contents ∧
      ((l.lazyRun filter).run w).2 = match l.selects filter (w.contents l.binding.store) with
        | .ok raws => Stream.start (l.step filter) (max l.settings.workers 1)
            (max l.settings.outputCapacity 1) raws
        | .error e => Stream.unopened (l.step filter) (max l.settings.workers 1)
            (max l.settings.outputCapacity 1) e := by
  obtain ⟨hmem, hcontents, hreply⟩ := run_openSource (l := l) hw filter
  rw [run_lazyRun_eq, hreply]
  cases l.selects filter (w.contents l.binding.store) <;> exact ⟨hmem, hcontents, rfl⟩

theorem run_stream (hw : w.InMemory) :
    (l.stream.run w).2 = match l.source (w.contents l.binding.store) with
      | .ok raws => Stream.start (l.step l.filter) (max l.settings.workers 1)
          (max l.settings.outputCapacity 1) raws
      | .error e => Stream.unopened (l.step l.filter) (max l.settings.workers 1)
          (max l.settings.outputCapacity 1) e :=
  (run_lazyRun hw l.filter).2.2

theorem settles_yields_iff_of_lazy (hexcluded : l.type.excludedFromLoad = false)
    (hwrite : l.type.writeBack = false) (hw : w.InMemory) :
    Settles (l.Yields w) objects ↔ ∃ raws, l.source (w.contents l.binding.store) = .ok raws ∧
      l.Decides raws ∧ (raws.filterMap (l.step l.filter).object?).Perm objects := by
  have hyields : l.Yields w = (l.stream.run w).2.Collects := by
    funext r
    exact propext (yields_iff_of_lazy hexcluded hwrite)
  rw [hyields, run_stream hw]
  cases hsource : l.source (w.contents l.binding.store) with
  | error e =>
    simp only [reduceCtorEq, false_and, exists_false, iff_false]
    rintro ⟨-, hall⟩
    obtain ⟨found, heq, -⟩ := hall (.error e) (.failed (Stream.next_of_failure rfl rfl rfl))
    cases heq
  | ok raws =>
    have hworkers : 0 < max l.settings.workers 1 := by omega
    have hcapacity : 0 < max l.settings.outputCapacity 1 := by omega
    simp only [Except.ok.injEq, exists_eq_left', Stream.settles_start_iff hworkers hcapacity]
    rfl

theorem settles_yields_iff_of_eager (hexcluded : l.type.excludedFromLoad = false)
    (hwrite : l.type.writeBack = true) (hw : w.InMemory) :
    Settles (l.Yields w) objects ↔ ∃ raws, l.source (w.contents l.binding.store) = .ok raws ∧
      l.Decides raws ∧ (raws.filterMap (l.step l.filter).object?).Perm objects ∧
      ∀ schedule, ∃ c, (w.contents l.binding.store).rewrite (l.rewrites schedule raws) = .ok c := by
  have hyields : ∀ schedule, l.Yields w
      ((((l.loadEagerly schedule).run w).2.map Result.objects).mapError l.failure) :=
    fun schedule => (yields_iff_of_eager hexcluded hwrite).mpr ⟨schedule, rfl⟩
  constructor
  · rintro ⟨-, hall⟩
    have hsucceeds : ∀ schedule, ∃ raws c, l.Succeeds schedule w raws c ∧
        (raws.filterMap (l.step l.filter).object?).Perm objects := by
      intro schedule
      obtain ⟨found, hfound, hperm⟩ := hall _ (hyields schedule)
      cases hr : ((l.loadEagerly schedule).run w).2 with
      | error i =>
        rw [hr] at hfound
        cases hfound
      | ok result =>
        obtain ⟨raws, c, hs, rfl⟩ := succeeds_of_run_loadEagerly hw hr
        rw [hr] at hfound
        obtain rfl := Except.ok.inj hfound
        exact ⟨raws, c, hs, (objects_perm schedule raws).symm.trans hperm⟩
    obtain ⟨raws, c, hs, hperm⟩ := hsucceeds .inOrder
    refine ⟨raws, hs.source, hs.decides, hperm, fun schedule => ?_⟩
    obtain ⟨raws', c', hs', -⟩ := hsucceeds schedule
    obtain rfl : raws = raws' := Except.ok.inj (hs.source.symm.trans hs'.source)
    exact ⟨c', hs'.rewrite⟩
  · rintro ⟨raws, hsource, hdecides, hperm, hrewrite⟩
    refine ⟨⟨_, hyields .inOrder⟩, fun r hr => ?_⟩
    obtain ⟨schedule, rfl⟩ := (yields_iff_of_eager hexcluded hwrite).mp hr
    obtain ⟨c, hc⟩ := hrewrite schedule
    obtain ⟨-, -, hresult⟩ := run_loadEagerly_of_succeeds hw ⟨hsource, hdecides, hc⟩
    rw [hresult]
    exact ⟨_, rfl, (objects_perm schedule raws).trans hperm⟩

/-- A load that takes part succeeds when it can select its documents, convert them and, if it
writes them back, do so in any order. -/
theorem settles_yields_iff (hexcluded : l.type.excludedFromLoad = false) (hw : w.InMemory) :
    Settles (l.Yields w) objects ↔ ∃ raws, l.source (w.contents l.binding.store) = .ok raws ∧
      l.Decides raws ∧ (raws.filterMap (l.step l.filter).object?).Perm objects ∧
      (l.type.writeBack = true → ∀ schedule, ∃ c,
        (w.contents l.binding.store).rewrite (l.rewrites schedule raws) = .ok c) := by
  cases hwrite : l.type.writeBack with
  | false => simp [settles_yields_iff_of_lazy hexcluded hwrite hw]
  | true => simp [settles_yields_iff_of_eager hexcluded hwrite hw]

end Loader

/-! ## Both selections -/

def keeps (share : Routing.Share) (d : Document) : Bool :=
  match share.owns d with
  | .ok b => b
  | .error _ => false

theorem filterMap_filter_of_none {β : Type} {f : Document → Option β} {keep : Document → Bool}
    {raws : List Document} (h : ∀ d ∈ raws, keep d = false → f d = none) :
    (raws.filter keep).filterMap f = raws.filterMap f := by
  rw [List.filterMap_filter]
  apply List.filterMap_congr
  intro d hd
  cases hk : keep d with
  | true => rfl
  | false => exact (h d hd hk).symm

theorem keeps_of_owns {share : Routing.Share} {d : Document} {b : Bool}
    (h : share.owns d = .ok b) : keeps share d = b := by simp [keeps, h]

theorem ownedBy_eq_ok_iff {share : Routing.Share} {c : Collection} {raws : List Document} :
    c.ownedBy share = .ok raws ↔ (∀ d ∈ c.documents, ∃ b, share.owns d = .ok b) ∧
      raws = c.documents.filter (keeps share) :=
  filterM_eq_ok_iff fun _ _ => keeps_of_owns

/-- The store can decide over every document, and keeps each one whose current form is in the share.
-/
def Foresees (share : Routing.Share) (t : ObjectType) (c : Collection) : Prop :=
  ∀ d ∈ c.documents, ∃ b, share.owns d = .ok b ∧ (share.owns (t.latest d) = .ok true → b = true)

theorem foresees_of_value?_eq {share : Routing.Share} {t : ObjectType} {c : Collection}
    (hrouted : ∀ d ∈ c.documents, (share.key.value? d).isSome = true)
    (hkept : ∀ d ∈ c.documents, share.key.value? (t.latest d) = share.key.value? d) :
    Foresees share t c := by
  intro d hd
  have howns : share.owns (t.latest d) = share.owns d := by
    have hlatest : (share.key.value? (t.latest d)).isSome = true := hkept d hd ▸ hrouted d hd
    rw [Routing.Share.owns_of_isSome share hlatest,
      Routing.Share.owns_of_isSome share (hrouted d hd)]
    simp only [Routing.owner, hkept d hd]
  rw [howns, Routing.Share.owns_of_isSome share (hrouted d hd)]
  exact ⟨_, rfl, fun h => Except.ok.inj h⟩

namespace Loader

variable {l : Loader Object} {w : World} {raws : List Document} {objects : List Object}
  {p : Routing.Partition}

def withRouted (l : Loader Object) (routed : Bool) : Loader Object :=
  { l with binding := { l.binding with type := { l.binding.type with routed } } }

theorem source_withRouted (hp : l.partition = some p) (c : Collection) :
    (l.withRouted true).source c = c.ownedBy ⟨l.type.routing, p⟩ := by
  have hfilter : (l.withRouted true).filter = .share ⟨l.type.routing, p⟩ := by
    simp only [filter, withRouted, hp]
    rfl
  simp only [source, selects, hfilter]
  rfl

theorem object?_isSome_iff (hp : l.partition = some p) {d : Document}
    (hd : ∃ r, (l.step l.filter).process d = .ok r) :
    ((l.step l.filter).object? d).isSome = true ↔
      Routing.Share.owns ⟨l.type.routing, p⟩ (l.type.latest d) = .ok true := by
  obtain ⟨r, hr⟩ := hd
  obtain ⟨d', object, b, hupgrade, -, haccepts, hform⟩ := Step.process_eq_ok_iff.mp hr
  have hlatest : l.type.latest d = d' := ObjectType.latest_of_upgrade hupgrade
  have howns : Routing.Share.owns ⟨l.type.routing, p⟩ d' = .ok b := by
    rw [← haccepts]
    simp only [step, filter, hp]
    rfl
  rw [hlatest, howns, Step.object?, Step.outcome_of_ok hr, hform]
  cases b <;> simp

theorem upgrade?_eq_none {step : Step Object} {d : Document} (h : step.object? d = none) :
    step.upgrade? d = none := by
  have hnone : step.outcome d = none := by simpa [Step.object?] using h
  rw [Step.upgrade?, hnone]
  rfl

/-- Where documents that are not wanted are left out, the others are still written back in an order
that is possible without that. -/
theorem exists_rewrites_filter (keep : Document → Bool)
    (hkeep : ∀ d ∈ raws, keep d = false → (l.step l.filter).object? d = none)
    (schedule : Schedule) :
    ∃ schedule', l.rewrites schedule (raws.filter keep) = l.rewrites schedule' raws := by
  have harranged := arranged_arrange schedule.converted l.settings.workers 0 (raws.filter keep)
  obtain ⟨all, hall, hfilter⟩ := harranged.of_filter
  obtain ⟨pick, hpick⟩ := hall.exists_arrange 0
  have hperm : all.Perm raws := hpick ▸ arrange_perm pick l.settings.workers 0 raws
  refine ⟨⟨pick, schedule.written⟩, ?_⟩
  have hupgrades : (arrange schedule.converted l.settings.workers 0 (raws.filter keep)).filterMap
      (l.step l.filter).upgrade? = all.filterMap (l.step l.filter).upgrade? := by
    rw [← hfilter]
    apply filterMap_filter_of_none
    intro d hd hk
    exact upgrade?_eq_none (hkeep d (hperm.mem_iff.mp hd) hk)
  rw [rewrites, rewrites, outcome, outcome, upgrades_map_outcome, upgrades_map_outcome, hpick,
    hupgrades]

/-- When a selection leaves no object out, it keeps the documents of all objects. -/
theorem kept_of_length_filterMap {f : Document → Option Object} {keep : Document → Bool}
    (hlen : ((raws.filter keep).filterMap f).length = (raws.filterMap f).length) :
    ∀ d ∈ raws, (f d).isSome = true → keep d = true := by
  intro d hd hsome
  have hsub : ((raws.filter keep).filter fun d => (f d).isSome).Sublist
      (raws.filter fun d => (f d).isSome) := List.filter_sublist.filter _
  rw [List.length_filterMap_eq_countP, List.length_filterMap_eq_countP,
    List.countP_eq_length_filter, List.countP_eq_length_filter] at hlen
  have hmem : d ∈ raws.filter fun d => (f d).isSome := List.mem_filter.mpr ⟨hd, hsome⟩
  rw [← hsub.eq_of_length hlen] at hmem
  exact (List.mem_filter.mp (List.mem_of_mem_filter hmem)).2

section Selection

variable {c : Collection} (hp : l.partition = some p) (hdecides : l.Decides c.documents)
include hp hdecides

/-- What the store leaves out would not have been wanted. -/
theorem object?_eq_none_of_foresees (h : Foresees ⟨l.type.routing, p⟩ l.type c) :
    ∀ d ∈ c.documents, keeps ⟨l.type.routing, p⟩ d = false →
      (l.step l.filter).object? d = none := by
  intro d hd hleft
  obtain ⟨b, hb, hlatest⟩ := h d hd
  rw [← Option.not_isSome_iff_eq_none, object?_isSome_iff hp (hdecides d hd)]
  intro howns
  rw [keeps_of_owns hb, hlatest howns] at hleft
  cases hleft

theorem foresees_of_selection (hselected : (l.withRouted true).source c = .ok raws)
    (hlen : (raws.filterMap (l.step l.filter).object?).length =
      (c.documents.filterMap (l.step l.filter).object?).length) :
    Foresees ⟨l.type.routing, p⟩ l.type c := by
  rw [source_withRouted hp, ownedBy_eq_ok_iff] at hselected
  obtain ⟨howns, rfl⟩ := hselected
  intro d hd
  obtain ⟨b, hb⟩ := howns d hd
  refine ⟨b, hb, fun hlatest => ?_⟩
  rw [← keeps_of_owns hb]
  apply kept_of_length_filterMap hlen d hd
  exact (object?_isSome_iff hp (hdecides d hd)).mpr hlatest

end Selection

end Loader

/-- The selection by the store agrees with that by the load exactly when the store foresees it.
Whatever the workers do, `objects` are then those of both loads. -/
theorem push_down_agrees_iff_foresees (l : Loader Object) {p : Routing.Partition}
    (hp : l.partition = some p) {w : World} (hw : w.InMemory) {objects : List Object}
    (hplain : Settles ((l.withRouted false).Yields w) objects) :
    Settles ((l.withRouted true).Yields w) objects ↔
      l.type.excludedFromLoad = true ∨
        Foresees ⟨l.type.routing, p⟩ l.type (w.contents l.binding.store) := by
  by_cases hexcluded : l.type.excludedFromLoad = true
  · have hsame : (l.withRouted true).Yields w = (l.withRouted false).Yields w := by
      funext r
      rw [eq_iff_iff, Loader.yields_iff_of_excluded (l := l.withRouted true) hexcluded,
        Loader.yields_iff_of_excluded (l := l.withRouted false) hexcluded]
    rw [hsame]
    exact ⟨fun _ => Or.inl hexcluded, fun _ => hplain⟩
  · have hexcluded : l.type.excludedFromLoad = false := by simpa using hexcluded
    obtain ⟨raws, hsource, hdecides, hperm, hrewrite⟩ :=
      (Loader.settles_yields_iff (l := l.withRouted false) hexcluded hw).mp hplain
    rw [Loader.source_of_not_routed rfl] at hsource
    obtain rfl := Except.ok.inj hsource
    constructor
    · intro hrouted
      obtain ⟨raws, hselected, -, hperm', -⟩ :=
        (Loader.settles_yields_iff (l := l.withRouted true) hexcluded hw).mp hrouted
      right
      apply Loader.foresees_of_selection hp hdecides hselected
      exact (hperm'.trans hperm.symm).length_eq
    · rintro (hno | hforesees)
      · rw [hexcluded] at hno
        cases hno
      have hleft := Loader.object?_eq_none_of_foresees hp hdecides hforesees
      apply (Loader.settles_yields_iff (l := l.withRouted true) hexcluded hw).mpr
      refine ⟨(w.contents l.binding.store).documents.filter (keeps ⟨l.type.routing, p⟩),
        ?_, ?_, ?_, ?_⟩
      · rw [Loader.source_withRouted hp, ownedBy_eq_ok_iff]
        exact ⟨fun d hd => (hforesees d hd).imp fun b hb => hb.1, rfl⟩
      · intro d hd
        exact hdecides d (List.mem_of_mem_filter hd)
      · exact (List.Perm.of_eq (filterMap_filter_of_none hleft)).trans hperm
      · -- every order of the writes is one that the other load could have taken
        intro hwrite schedule
        obtain ⟨schedule', hsame⟩ := Loader.exists_rewrites_filter (l := l.withRouted true) _ hleft
          schedule
        obtain ⟨c, hc⟩ := hrewrite hwrite schedule'
        exact ⟨c, (congrArg _ hsame).trans hc⟩

/-! Fruits that are spread by their origin, on the second of two processes. -/

def grownIn (origin name : String) : Document :=
  (Document.ofIdentity (.text name)).insert "origin" (.text origin)

def market : World :=
  ⟨TextMap.empty.insert "fruits"
    { collection := ((Collection.empty "fruits").put "\"apple\"" (grownIn "Peru" "apple")).put
        "\"pear\"" (grownIn "Chile" "pear")
      supply := fun _ => "" }⟩

theorem inMemory_market : market.InMemory :=
  World.InMemory.setStore (w := ⟨.empty⟩) (fun _ => ⟨rfl, rfl, rfl⟩) "fruits" ⟨rfl, rfl, rfl⟩

def onSecond (t : ObjectType) : Loader Value where
  binding := ⟨t, "fruits", "fruits", .ofCodec .value "name"⟩
  settings := {}
  partition := some ⟨2, 2⟩

def graded : Loader Value := onSecond { fruitType with routing := ⟨"origin"⟩ }

def gradedPear : Value :=
  .object [("grade", .text "A"), ("name", .text "pear"), ("origin", .text "Chile")]

/-- A grade does not move a fruit to another process. -/
theorem push_down_keeps_graded_pear :
    Settles ((graded.withRouted false).Yields market) [gradedPear] ∧
      Settles ((graded.withRouted true).Yields market) [gradedPear] := by
  have hplain : Settles ((graded.withRouted false).Yields market) [gradedPear] := by
    apply (Loader.settles_yields_iff (l := graded.withRouted false) rfl inMemory_market).mpr
    refine ⟨[grownIn "Peru" "apple", grownIn "Chile" "pear"], rfl, ?_, List.Perm.refl _, ?_⟩
    · intro d hd
      rcases List.mem_pair.mp hd with rfl | rfl <;> exact ⟨_, rfl⟩
    · intro _ schedule
      have hpear : (graded.withRouted false).rewrites schedule
          [grownIn "Peru" "apple", grownIn "Chile" "pear"] =
          [⟨grownIn "Chile" "pear", fruitType.latest (grownIn "Chile" "pear")⟩] :=
        List.perm_singleton.mp (Loader.rewrites_perm schedule _)
      rw [hpear]
      exact ⟨_, rfl⟩
  have hforesees : Foresees ⟨⟨"origin"⟩, ⟨2, 2⟩⟩ graded.type (market.contents "fruits") := by
    have hdocuments : (market.contents "fruits").documents =
        [grownIn "Peru" "apple", grownIn "Chile" "pear"] := rfl
    apply foresees_of_value?_eq
    · rw [hdocuments]
      decide
    · intro d hd
      rw [hdocuments] at hd
      rcases List.mem_pair.mp hd with rfl | rfl <;> rfl
  exact ⟨hplain, (push_down_agrees_iff_foresees graded rfl inMemory_market hplain).mpr
    (Or.inr hforesees)⟩

def sourcing : Patch where
  fromVersion := 1
  description := none
  body := fun d => (d.insert "origin" (.text "Spain"), .ok ())

def sourced : Loader Value :=
  onSecond { fruitType with routing := ⟨"origin"⟩, chain := ⟨[sourcing], rfl⟩, writeBack := false }

def spanish (name : String) : Value := .object [("name", .text name), ("origin", .text "Spain")]

/-- A patch moves the apple to the second process, where the store does not select it. -/
theorem push_down_misses_moved_apple :
    Settles ((sourced.withRouted false).Yields market) [spanish "apple", spanish "pear"] ∧
      Settles ((sourced.withRouted true).Yields market) [spanish "pear"] ∧
      ¬ Settles ((sourced.withRouted true).Yields market) [spanish "apple", spanish "pear"] := by
  have hrouted : Settles ((sourced.withRouted true).Yields market) [spanish "pear"] := by
    apply (Loader.settles_yields_iff (l := sourced.withRouted true) rfl inMemory_market).mpr
    refine ⟨[grownIn "Chile" "pear"], rfl, ?_, List.Perm.refl _, fun hwrite => by cases hwrite⟩
    intro d hd
    obtain rfl := List.mem_singleton.mp hd
    exact ⟨_, rfl⟩
  refine ⟨?_, hrouted, ?_⟩
  · apply (Loader.settles_yields_iff (l := sourced.withRouted false) rfl inMemory_market).mpr
    refine ⟨[grownIn "Peru" "apple", grownIn "Chile" "pear"], rfl, ?_, List.Perm.refl _,
      fun hwrite => by cases hwrite⟩
    intro d hd
    rcases List.mem_pair.mp hd with rfl | rfl <;> exact ⟨_, rfl⟩
  · intro hboth
    have hlength := (hrouted.perm hboth).length_eq
    cases hlength

end Load

end StoredObjects
