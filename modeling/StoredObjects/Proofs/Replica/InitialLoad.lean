import StoredObjects.Proofs.Load.Items
import StoredObjects.Proofs.Merge.Finite
import StoredObjects.Proofs.Replica.Loading
import StoredObjects.Proofs.Replica.Wiring
import StoredObjects.Proofs.Sync.Blocking

/-! # The first load of a replica

All types that take part are loaded at the same time, through one merge. Since no two of them have a
collection in common, the first load is the union of the loads of the single types: it succeeds when
each of them would alone, gives what they give, and leaves what they leave.
-/

namespace StoredObjects

namespace Replica

variable {Object : Type} {settings : Settings} {bindings : List (Binding Object)}
  {r : Replica Object} {w w' : World}

def loading (r : Replica Object) (schedules : Nat → Load.Schedule) (w : World) : Loading Object :=
  .start r.settings.load r.initialLoaders schedules w

section Built

variable (hbuilt : ofBindings settings bindings = .ok r)
include hbuilt

theorem excludedFromLoad_of_mem_initialLoaders {l : Load.Loader Object}
    (hl : l ∈ r.initialLoaders) : l.type.excludedFromLoad = false := by
  rw [initialLoaders_of_ofBindings hbuilt] at hl
  obtain ⟨b, hb, rfl⟩ := List.mem_map.mp hl
  simpa [Load.Loader.type] using (List.mem_filter.mp hb).2

variable (hhosts : Sync.Hosts w bindings)
include hhosts

theorem pairwise_store_ne : bindings.Pairwise fun b c => b.store ≠ c.store := by
  refine (pairwise_of_ofBindings hbuilt).imp_of_mem fun {b c} hb hc hne heq => hne.2 ?_
  rw [← hhosts b hb, ← hhosts c hc, heq]

theorem apart_initialLoaders : Loading.Apart r.initialLoaders := by
  unfold Loading.Apart
  rw [initialLoaders_of_ofBindings hbuilt, List.pairwise_map]
  exact (pairwise_store_ne hbuilt hhosts).filter _

theorem store_ne_of_excluded {b : Binding Object} (hb : b ∈ bindings)
    (hexcluded : b.type.excludedFromLoad = true) :
    ∀ l ∈ r.initialLoaders, l.binding.store ≠ b.store := by
  intro l hl heq
  rw [initialLoaders_of_ofBindings hbuilt] at hl
  obtain ⟨c, hc, rfl⟩ := List.mem_map.mp hl
  obtain ⟨hmem, hincluded⟩ := List.mem_filter.mp hc
  obtain rfl := eq_of_collection_eq hbuilt hmem hb (by rw [← hhosts _ hmem, ← hhosts _ hb, heq])
  simp [hexcluded] at hincluded

end Built

end Replica

/-! ## Loads that are merged -/

open Load (Loader)

/-- What a reader of merged loads has met: all that the loads can give alone, each of which left its
store as it does alone, or a failure of one of them. -/
inductive Merged {Object : Type} (loaders : List (Loader Object)) (w : World) :
    Except Failure (List Object) → World → Prop where
  | all {lists : List (List Object)} {items : List Object} {w' : World}
      (hlists : List.Forall₂ (fun l objects => l.Yields w (.ok objects)) loaders lists)
      (hperm : items.Perm lists.flatten)
      (hcontents : ∀ l ∈ loaders, ∃ schedule, w'.contents l.binding.store =
        ((l.loadAll schedule).run w).1.contents l.binding.store)
      (helsewhere : ∀ key, (∀ l ∈ loaders, l.binding.store ≠ key) → w'.store key = w.store key) :
      Merged loaders w (.ok items) w'
  | failed {l : Loader Object} {e : Failure} {w' : World} (hl : l ∈ loaders)
      (hfails : l.Yields w (.error e))
      (helsewhere : ∀ key, (∀ l ∈ loaders, l.binding.store ≠ key) → w'.store key = w.store key) :
      Merged loaders w (.error e) w'

section Merged

variable {Object : Type} {loaders : List (Loader Object)} {w w' : World}
  {result : Except Failure (List Object)}

theorem Merged.elsewhere (h : Merged loaders w result w') {key : String}
    (hkey : ∀ l ∈ loaders, l.binding.store ≠ key) : w'.store key = w.store key := by
  cases h with
  | all _ _ _ helsewhere => exact helsewhere key hkey
  | failed _ _ helsewhere => exact helsewhere key hkey

theorem Loading.merged_of_collects {settings : Settings.Load} {schedules : Nat → Load.Schedule}
    (hw : w.InMemory) (hapart : Apart loaders)
    (h : (start settings loaders schedules w).Collects result w') : Merged loaders w result w' := by
  cases h with
  | ended hrun hlook =>
    have hend := (invariant_start settings hw).run hapart hrun
    rw [List.nil_append] at hend
    obtain ⟨lists, hshuffle, hlength, hlists⟩ := hend.exists_of_ended hlook
    have hyields : List.Forall₂ (fun l objects => l.Yields w (.ok objects)) loaders lists := by
      rw [List.forall₂_iff_get]
      refine ⟨hlength.symm, fun i hi hi' => ?_⟩
      obtain ⟨u, -, hcomes⟩ := hlists i _ _ (List.getElem?_eq_getElem hi)
        (List.getElem?_eq_getElem hi')
      exact (hcomes.yields hw).1
    refine .all hyields hshuffle.perm (fun l hl => ?_) hend.elsewhere
    obtain ⟨i, hi⟩ := List.mem_iff_getElem?.mp hl
    have hlt := (List.getElem?_eq_some_iff.mp hi).1
    obtain ⟨u, hstore, hcomes⟩ := hlists i l _ hi (List.getElem?_eq_getElem (hlength ▸ hlt))
    refine ⟨schedules i, ?_⟩
    rw [← (hcomes.yields hw).2]
    exact (congrArg Store.collection hstore).symm
  | failed hrun hlook =>
    have hend := (invariant_start settings hw).run hapart hrun
    obtain ⟨i, l, u, hl, hcomes⟩ := hend.exists_of_failed hlook
    exact .failed (List.mem_of_getElem? hl) (hcomes.yields hw).1 hend.elsewhere

end Merged

/-! ## Loads one after another -/

namespace Replica

variable {Object : Type} {w : World}

theorem run_loadSources_cons (schedule : Load.Schedule) (r : Replica Object) (l : Loader Object)
    (loaders : List (Loader Object)) (w : World) :
    (loadSources schedule r (l :: loaders)).run w =
      let first := (l.loadItems schedule r.settings.load.mergeTimeout).run w
      let rest := (loadSources schedule (r.note first.2.1) loaders).run first.1
      (rest.1, rest.2.1, first.2.2 :: rest.2.2) := by
  simp only [loadSources, Program.bind_eq, Program.run_bind]
  rfl

theorem run_loadSources (hw : w.InMemory) {loaders : List (Loader Object)}
    (hapart : Loading.Apart loaders) (schedule : Load.Schedule) (r : Replica Object) {u : World}
    (hsame : ∀ l ∈ loaders, u.store l.binding.store = w.store l.binding.store) :
    List.Forall₂ (fun l items => l.Supplies w items) loaders
        ((loadSources schedule r loaders).run u).2.2 ∧
      (∀ l ∈ loaders, ((loadSources schedule r loaders).run u).1.contents l.binding.store =
        ((l.loadAll schedule).run w).1.contents l.binding.store) ∧
      ∀ key, (∀ l ∈ loaders, l.binding.store ≠ key) →
        ((loadSources schedule r loaders).run u).1.store key = u.store key := by
  induction loaders generalizing r u with
  | nil => exact ⟨.nil, by simp, fun _ _ => rfl⟩
  | cons l loaders ih =>
    obtain ⟨hothers, hapart⟩ := List.pairwise_cons.mp hapart
    have hwithin := l.permits_within.loadItems schedule r.settings.load.mergeTimeout
    obtain ⟨hreply, hleft⟩ := Program.Within.run_congr hwithin (hsame l List.mem_cons_self)
    obtain ⟨hsupplies, hcontents⟩ := Load.Loader.supplies_loadItems (l := l) hw schedule
      r.settings.load.mergeTimeout
    have hframe : ∀ key, l.binding.store ≠ key →
        ((l.loadItems schedule r.settings.load.mergeTimeout).run u).1.store key = u.store key :=
      fun key hne => Program.Within.store_run hwithin hne.symm u
    obtain ⟨hrest, hends, helsewhere⟩ := ih hapart
      (r.note ((l.loadItems schedule r.settings.load.mergeTimeout).run u).2.1) fun l' hl' =>
        (hframe _ (hothers l' hl')).trans (hsame l' (List.mem_cons_of_mem _ hl'))
    rw [run_loadSources_cons]
    refine ⟨.cons (hreply ▸ hsupplies) hrest, fun l' hl' => ?_, fun key hkey => ?_⟩
    · rcases List.mem_cons.mp hl' with rfl | hl'
      · refine Eq.trans ?_ (congrFun hcontents _)
        exact congrArg Store.collection ((helsewhere _ fun l hl => (hothers l hl).symm).trans hleft)
      · exact hends l' hl'
    · exact (helsewhere key fun l hl => hkey l (List.mem_cons_of_mem _ hl)).trans
        (hframe key (hkey l List.mem_cons_self))

theorem run_initialLoad (r : Replica Object) (schedule : Load.Schedule) (w : World) :
    (r.initialLoad schedule).run w = (((loadSources schedule r r.initialLoaders).run w).1,
      ((loadSources schedule r r.initialLoaders).run w).2.1,
      .ofSettings ((loadSources schedule r r.initialLoaders).run w).2.1.settings.load
        (((loadSources schedule r r.initialLoaders).run w).2.2.map .ofItems)) := by
  unfold initialLoad
  rw [Program.bind_eq, Program.run_bind]
  rfl

section Initial

variable {r : Replica Object} (hw : w.InMemory) (hapart : Loading.Apart r.initialLoaders)
  (schedule : Load.Schedule)
include hw hapart

/-- The reader can always go on to the end of the first load, or to a failure. -/
theorem exists_comes_initialLoad {n : Nat} {answers : List (Merge.Answer Object)}
    {m : Merge Object} (hrun : Merge.Runs ((r.initialLoad schedule).run w).2.2 n answers m) :
    ∃ result, m.Comes result := by
  rw [run_initialLoad] at hrun
  refine Merge.exists_comes_of_runs (fun items hitems => ?_) hrun
  obtain ⟨l, -, hsupplies⟩ := exists_mem_of_forall₂
    (run_loadSources hw hapart schedule r fun _ _ => rfl).1.flip hitems
  exact hsupplies.not_stalled

/-- Loads that were made one after another are merged like those that go on at the same time. -/
theorem merged_initialLoad {result : Except Failure (List Object)}
    (h : ((r.initialLoad schedule).run w).2.2.Comes result) :
    Merged r.initialLoaders w result ((r.initialLoad schedule).run w).1 := by
  obtain ⟨hsupplies, hcontents, helsewhere⟩ :=
    run_loadSources hw hapart schedule r fun _ _ => rfl
  rw [run_initialLoad] at h ⊢
  cases result with
  | ok items =>
    obtain ⟨hcomplete, hshuffle⟩ := Merge.of_comes_ok h
    refine .all ?_ hshuffle.perm (fun l hl => ⟨schedule, hcontents l hl⟩) helsewhere
    rw [List.forall₂_map_right_iff]
    rw [List.forall₂_iff_zip] at hsupplies ⊢
    exact ⟨hsupplies.1, fun hmem =>
      (hsupplies.2 hmem).yields_of_complete (hcomplete _ (List.of_mem_zip hmem).2)⟩
  | error e =>
    obtain ⟨items, hitems, hfailed⟩ := Merge.of_comes_error h
    obtain ⟨l, hl, hsupplies⟩ := exists_mem_of_forall₂ hsupplies.flip hitems
    exact .failed hl (hsupplies.yields_of_failed hfailed) helsewhere

end Initial

end Replica

/-! ## The union of the loads -/

namespace Replica

variable {Object : Type} {settings : Settings} {bindings : List (Binding Object)}
  {r : Replica Object} {w w' : World} {result : Except Failure (List Object)}

structure IsUnion (r : Replica Object) (w : World) (result : Except Failure (List Object))
    (w' : World) : Prop where
  succeeds : (∃ items, result = .ok items) ↔
    ∀ l ∈ r.initialLoaders, ∃ objects, l.Yields w (.ok objects)
  objects : ∀ items, result = .ok items → ∀ lists, List.Forall₂ (fun l objects =>
    l.Yields w (.ok objects)) r.initialLoaders lists → items.Perm lists.flatten
  contents : ∀ items, result = .ok items → ∀ l ∈ r.initialLoaders, ∀ schedule,
    w'.contents l.binding.store = ((l.loadAll schedule).run w).1.contents l.binding.store
  fails : ∀ e, result = .error e → ∃ l ∈ r.initialLoaders, l.Yields w (.error e) ∧
    ∀ objects, ¬ l.Yields w (.ok objects)
  excluded : ∀ b ∈ r.bindings, b.type.excludedFromLoad = true → w'.store b.store = w.store b.store

theorem isUnion_of_merged (hbuilt : ofBindings settings bindings = .ok r) (hw : w.InMemory)
    (hhosts : Sync.Hosts w bindings)
    (hsteady : ∀ l ∈ r.initialLoaders, l.Steady (w.contents l.binding.store))
    (h : Merged r.initialLoaders w result w') : r.IsUnion w result w' := by
  have hincluded := fun l hl => excludedFromLoad_of_mem_initialLoaders hbuilt (l := l) hl
  have halike : ∀ l ∈ r.initialLoaders, ∀ {result result'}, l.Yields w result →
      l.Yields w result' → Load.Alike result result' :=
    fun l hl _ _ h h' => h.alike hw (hincluded l hl) (hsteady l hl) h'
  have hexcluded : ∀ b ∈ r.bindings, b.type.excludedFromLoad = true →
      w'.store b.store = w.store b.store := by
    intro b hb hb'
    rw [(eq_of_ofBindings hbuilt).2.1] at hb
    exact h.elsewhere (store_ne_of_excluded hbuilt hhosts hb hb')
  cases h with
  | @all lists items _ hlists hperm hcontents =>
    have hyields : ∀ l ∈ r.initialLoaders, ∃ objects, l.Yields w (.ok objects) := by
      intro l hl
      obtain ⟨objects, -, hobjects⟩ := exists_mem_of_forall₂ hlists hl
      exact ⟨objects, hobjects⟩
    refine ⟨iff_of_true ⟨items, rfl⟩ hyields, ?_, fun _ _ l hl schedule => ?_, nofun, hexcluded⟩
    · rintro _ ⟨⟩ lists' hlists'
      exact hperm.trans (List.Perm.flatten_congr (forall₂_of_common hlists hlists'
        fun l hl _ _ h h' => halike l hl h h'))
    · obtain ⟨schedule', hleft⟩ := hcontents l hl
      obtain ⟨objects, hobjects⟩ := hyields l hl
      rw [hleft, hobjects.contents_eq hw (hincluded l hl) (hsteady l hl) schedule' schedule]
  | @failed l e _ hl hfails =>
    have hno : ∀ objects, ¬ l.Yields w (.ok objects) := fun objects hobjects =>
      halike l hl hfails hobjects
    refine ⟨iff_of_false nofun fun hall => ?_, nofun, nofun, ?_, hexcluded⟩
    · obtain ⟨objects, hobjects⟩ := hall l hl
      exact hno objects hobjects
    · rintro _ ⟨⟩
      exact ⟨l, hl, hfails, hno⟩

/-- Where patches keep identities and no document dies, the first load succeeds exactly when every
type that takes part can be loaded alone. It then gives the objects of all of them, and every
collection is left as the load of its own type alone leaves it, those of excluded types as they
were. Otherwise it fails as one of the types does that cannot be loaded. Whatever has happened, it
can be brought to its end. This is so for loads that are made one after another and then merged, and
for loads that go on at the same time while they are merged. -/
theorem initial_load_is_union {settings : Settings} {bindings : List (Binding Object)}
    {r : Replica Object} (hbuilt : ofBindings settings bindings = .ok r) {w : World}
    (hw : w.InMemory) (hhosts : Sync.Hosts w bindings)
    (hsteady : ∀ l ∈ r.initialLoaders, l.Steady (w.contents l.binding.store)) :
    r.initialLoaders = (bindings.filter fun b => !b.type.excludedFromLoad).map
      (fun b => ⟨b, settings.load, settings.partition⟩) ∧
    (∀ schedule,
      (∀ n answers m, Merge.Runs ((r.initialLoad schedule).run w).2.2 n answers m →
        ∃ result, m.Comes result) ∧
      ∀ result, ((r.initialLoad schedule).run w).2.2.Comes result →
        r.IsUnion w result ((r.initialLoad schedule).run w).1) ∧
    ∀ schedules,
      (∀ items s, (r.loading schedules w).Runs items s → ∃ result w', s.Collects result w') ∧
      ∀ result w', (r.loading schedules w).Collects result w' → r.IsUnion w result w' := by
  have hapart := apart_initialLoaders hbuilt hhosts
  refine ⟨initialLoaders_of_ofBindings hbuilt, fun schedule => ⟨fun n answers m hrun => ?_,
    fun result hcomes => ?_⟩, fun schedules => ⟨fun items s hrun => ?_, fun result w' h => ?_⟩⟩
  · exact exists_comes_initialLoad hw hapart schedule hrun
  · exact isUnion_of_merged hbuilt hw hhosts hsteady (merged_initialLoad hw hapart schedule hcomes)
  · exact ((Loading.invariant_start r.settings.load hw).run hapart hrun).ends hapart
  · exact isUnion_of_merged hbuilt hw hhosts hsteady (Loading.merged_of_collects hw hapart h)

/-! A garden: fruits are loaded at once and written back, herbs are read lazily, and weeds are not
loaded. -/

def herbs : Binding Value where
  type := { fruitType with name := "Herb", collection := "herbs", writeBack := false }
  store := "herbs"
  collection := "herbs"
  converter := .ofCodec .value "name"

def weeds : Binding Value where
  type := { fruitType with name := "Weed", collection := "weeds", excludedFromLoad := true }
  store := "weeds"
  collection := "weeds"
  converter := .ofCodec .value "name"

def gardenSettings : Settings := { sync := { transientPatterns := [] } }

def gardenReplica : Replica Value where
  settings := gardenSettings
  registry := ⟨[fruitType, herbs.type, weeds.type]⟩
  bindings := [fruits, herbs, weeds]
  triage := ⟨.rethrowTransient, []⟩

def bed (collection name : String) : Store where
  collection := (Collection.empty collection).put (Document.keyOf (.text name))
    (.ofIdentity (.text name))
  supply := fun _ => ""

def garden : World :=
  ⟨((TextMap.empty.insert "fruits" (bed "fruits" "apple")).insert "herbs"
    (bed "herbs" "mint")).insert "weeds" (bed "weeds" "nettle")⟩

def gradedPlant (name : String) : Value := .object [("grade", .text "A"), ("name", .text name)]

theorem gardenReplica_built :
    ofBindings gardenSettings [fruits, herbs, weeds] = .ok gardenReplica := rfl

theorem initialLoaders_gardenReplica :
    gardenReplica.initialLoaders = [⟨fruits, {}, none⟩, ⟨herbs, {}, none⟩] := rfl

theorem inMemory_garden : garden.InMemory := by
  have hbed : ∀ collection name, (bed collection name).InMemory := fun _ _ => ⟨rfl, rfl, rfl⟩
  exact ((World.InMemory.setStore (w := ⟨.empty⟩) (fun _ => ⟨rfl, rfl, rfl⟩) "fruits"
    (hbed _ _)).setStore "herbs" (hbed _ _)).setStore "weeds" (hbed _ _)

theorem hosts_garden : Sync.Hosts garden [fruits, herbs, weeds] := by
  intro b hb
  simp only [List.mem_cons, List.not_mem_nil, or_false] at hb
  rcases hb with rfl | rfl | rfl <;> rfl

theorem steady_garden : ∀ l ∈ gardenReplica.initialLoaders,
    l.Steady (garden.contents l.binding.store) := by
  have hkeyed : ∀ collection name, (bed collection name).collection.Keyed :=
    fun _ _ => (Collection.keyed_empty _).put rfl
  intro l hl
  rw [initialLoaders_gardenReplica] at hl
  rcases List.mem_pair.mp hl with rfl | rfl
  · refine ⟨hkeyed "fruits" "apple", keepsIdentities_fruitType, fun raw hraw => ?_⟩
    obtain rfl : raw = .ofIdentity (.text "apple") := List.mem_singleton.mp hraw
    exact nofun
  · refine ⟨hkeyed "herbs" "mint", keepsIdentities_fruitType, fun raw hraw => ?_⟩
    obtain rfl : raw = .ofIdentity (.text "mint") := List.mem_singleton.mp hraw
    exact nofun

theorem garden_yields :
    (∃ objects, Load.Loader.Yields ⟨fruits, {}, none⟩ garden (.ok objects) ∧
      objects.Perm [gradedPlant "apple"]) ∧
    ∃ objects, Load.Loader.Yields ⟨herbs, {}, none⟩ garden (.ok objects) ∧
      objects.Perm [gradedPlant "mint"] := by
  have hyields : ∀ l ∈ gardenReplica.initialLoaders, ∀ plants,
      l.type.excludedFromLoad = false →
      l.Gives l.filter (garden.contents l.binding.store) plants →
      ∃ objects, l.Yields garden (.ok objects) ∧ objects.Perm plants := by
    intro l hl plants hincluded hgives
    have hsteady := steady_garden l hl
    obtain ⟨objects, hok⟩ := hsteady.exists_yields inMemory_garden hincluded hgives
    exact ⟨objects, hok, hok.perm inMemory_garden hincluded hsteady hgives⟩
  rw [initialLoaders_gardenReplica] at hyields
  constructor
  · refine hyields _ (by simp) _ rfl
      ⟨[.ofIdentity (.text "apple")], rfl, fun raw hraw => ?_, .refl _⟩
    obtain rfl := List.mem_singleton.mp hraw
    exact ⟨_, rfl⟩
  · refine hyields _ (by simp) _ rfl
      ⟨[.ofIdentity (.text "mint")], rfl, fun raw hraw => ?_, .refl _⟩
    obtain rfl := List.mem_singleton.mp hraw
    exact ⟨_, rfl⟩

def Gathered (items : List Value) (w : World) : Prop :=
  items.Perm [gradedPlant "apple", gradedPlant "mint"] ∧
    (w.contents "fruits").documents.map Document.version = [2] ∧
    (w.contents "herbs").documents.map Document.version = [1] ∧
    w.store "weeds" = garden.store "weeds"

theorem gathered_of_isUnion {result : Except Failure (List Value)} {w : World}
    (h : gardenReplica.IsUnion garden result w) :
    ∃ items, result = .ok items ∧ Gathered items w := by
  obtain ⟨⟨apples, hfruits, happles⟩, mints, hherbs, hmints⟩ := garden_yields
  obtain ⟨hsucceeds, hobjects, hcontents, -, hexcluded⟩ := h
  rw [initialLoaders_gardenReplica] at hsucceeds hobjects hcontents
  obtain ⟨items, rfl⟩ := hsucceeds.mpr (by
    intro l hl
    rcases List.mem_pair.mp hl with rfl | rfl
    · exact ⟨apples, hfruits⟩
    · exact ⟨mints, hherbs⟩)
  have hitems : items.Perm (apples ++ mints) := by
    simpa using hobjects items rfl [apples, mints] (.cons hfruits (.cons hherbs .nil))
  refine ⟨items, rfl, hitems.trans (happles.append hmints), ?_, ?_,
    hexcluded weeds (by simp [gardenReplica]) rfl⟩
  · rw [show w.contents "fruits" = _ from
      hcontents items rfl ⟨fruits, {}, none⟩ (by simp) .inOrder]
    decide +kernel
  · rw [show w.contents "herbs" = _ from hcontents items rfl ⟨herbs, {}, none⟩ (by simp) .inOrder]
    decide +kernel

/-- The beds give the same items one after another and at the same time. -/
theorem garden_loaded :
    (∃ items, ((gardenReplica.initialLoad .inOrder).run garden).2.2.Comes (.ok items) ∧
      Gathered items ((gardenReplica.initialLoad .inOrder).run garden).1) ∧
    ∃ items w, (gardenReplica.loading (fun _ => .inOrder) garden).Collects (.ok items) w ∧
      Gathered items w := by
  obtain ⟨-, hserial, hparallel⟩ := initial_load_is_union gardenReplica_built inMemory_garden
    hosts_garden steady_garden
  constructor
  · obtain ⟨hends, hunion⟩ := hserial .inOrder
    obtain ⟨result, hcomes⟩ := hends 0 [] _ .start
    obtain ⟨items, rfl, hgathered⟩ := gathered_of_isUnion (hunion result hcomes)
    exact ⟨items, hcomes, hgathered⟩
  · obtain ⟨hends, hunion⟩ := hparallel fun _ => .inOrder
    obtain ⟨result, w, hcollects⟩ := hends [] _ .start
    obtain ⟨items, rfl, hgathered⟩ := gathered_of_isUnion (hunion result w hcollects)
    exact ⟨items, w, hcollects, hgathered⟩

end Replica

end StoredObjects
