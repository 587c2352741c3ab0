import StoredObjects.Proofs.ObjectType.Registering
import StoredObjects.Replica

/-! # What replicas are built from

A replica that is built tells its types apart by their names and by their collections. A type is
bound to the collection that it names, so a collection leads back to one binding.
-/

namespace StoredObjects

theorem Binding.mem_of_find? {Object : Type} {bindings : List (Binding Object)} {name : String}
    {b : Binding Object} (h : Binding.find? bindings name = some b) : b ∈ bindings :=
  List.mem_reverse.mp (List.mem_of_find?_eq_some h)

namespace Replica

variable {Object : Type} {settings : Settings} {bindings : List (Binding Object)}
  {r : Replica Object}

theorem collection_eq_of_checked (h : bindings.forM checkBinding = .ok ()) :
    ∀ b ∈ bindings, b.type.collection = b.collection := by
  induction bindings with
  | nil => simp
  | cons b bindings ih =>
    change (checkBinding b >>= fun _ => bindings.forM checkBinding) = .ok () at h
    by_cases hb : b.type.collection = b.collection
    · simp only [checkBinding, hb, if_true] at h
      intro c hc
      rcases List.mem_cons.mp hc with rfl | hc
      · exact hb
      · exact ih h c hc
    · simp only [checkBinding, hb, if_false] at h
      cases h

theorem parts_of_ofBindings (h : ofBindings settings bindings = .ok r) :
    bindings.forM checkBinding = .ok () ∧
      Registry.ofList (bindings.map Binding.type) = .ok r.registry ∧
      r.settings = settings ∧ r.bindings = bindings ∧
      Sync.Triage.ofSettings settings.sync = .ok r.triage := by
  unfold ofBindings at h
  cases hv : settings.validate with
  | error e =>
    rw [hv] at h
    cases h
  | ok u =>
    cases hc : bindings.forM checkBinding with
    | error e =>
      rw [hv, hc] at h
      cases h
    | ok u =>
      cases hr : Registry.ofList (bindings.map Binding.type) with
      | error e =>
        rw [hv, hc, hr] at h
        cases h
      | ok registry =>
        cases ht : Sync.Triage.ofSettings settings.sync with
        | error e =>
          rw [hv, hc, hr, ht] at h
          cases h
        | ok triage =>
          rw [hv, hc, hr, ht] at h
          obtain rfl := Except.ok.inj h
          exact ⟨rfl, rfl, rfl, rfl, rfl⟩

theorem eq_of_ofBindings (h : ofBindings settings bindings = .ok r) :
    r.settings = settings ∧ r.bindings = bindings ∧
      Sync.Triage.ofSettings settings.sync = .ok r.triage :=
  (parts_of_ofBindings h).2.2

theorem types_of_ofBindings (h : ofBindings settings bindings = .ok r) :
    r.registry.types = bindings.map Binding.type := by
  rw [(Registry.ofList_eq_ok_iff.mp (parts_of_ofBindings h).2.1).2]

theorem pairwise_of_ofBindings (h : ofBindings settings bindings = .ok r) :
    bindings.Pairwise fun b c => b.type.name ≠ c.type.name ∧ b.collection ≠ c.collection := by
  obtain ⟨hc, hr, -⟩ := parts_of_ofBindings h
  have hchecked := collection_eq_of_checked hc
  have hapart := List.pairwise_map.mp (Registry.ofList_eq_ok_iff.mp hr).1
  refine hapart.imp_of_mem fun {b c} hb hc hne => ?_
  rw [← hchecked b hb, ← hchecked c hc]
  exact hne

theorem eq_of_collection_eq (h : ofBindings settings bindings = .ok r) {b c : Binding Object}
    (hb : b ∈ bindings) (hc : c ∈ bindings) (heq : b.collection = c.collection) : b = c := by
  by_contra hne
  have hsymm : Std.Symm fun b c : Binding Object => b.collection ≠ c.collection :=
    ⟨fun _ _ h => h.symm⟩
  exact ((pairwise_of_ofBindings h).imp And.right).forall hb hc hne heq

theorem exists_storeOf (h : ofBindings settings bindings = .ok r) :
    ∃ storeOf : String → String, ∀ b ∈ bindings, b.store = storeOf b.collection := by
  classical
  refine ⟨fun name => ((bindings.find? fun b => b.collection = name).map Binding.store).getD "",
    fun b hb => ?_⟩
  obtain ⟨c, hc⟩ : ∃ c, bindings.find? (fun c => c.collection = b.collection) = some c :=
    Option.isSome_iff_exists.mp (List.find?_isSome.mpr ⟨b, hb, by simp⟩)
  have heq : c.collection = b.collection := by simpa using List.find?_some hc
  obtain rfl := eq_of_collection_eq h (List.mem_of_find?_eq_some hc) hb heq
  simp [hc]

theorem find?_of_ofBindings (h : ofBindings settings bindings = .ok r) {b : Binding Object}
    (hb : b ∈ bindings) : Binding.find? bindings b.type.name = some b := by
  have hnames := (pairwise_of_ofBindings h).imp fun hne => hne.1.symm
  exact (find?_key_eq_some_iff (List.pairwise_reverse.mpr hnames)).mpr
    ⟨List.mem_reverse.mpr hb, rfl⟩

theorem initialLoaders_of_ofBindings (h : ofBindings settings bindings = .ok r) :
    r.initialLoaders = (bindings.filter fun b => !b.type.excludedFromLoad).map fun b =>
      ⟨b, settings.load, settings.partition⟩ := by
  obtain ⟨rfl, rfl, -⟩ := eq_of_ofBindings h
  unfold initialLoaders
  rw [types_of_ofBindings h, List.filter_map, List.filterMap_map, ← List.filterMap_eq_map]
  refine List.filterMap_congr fun b hb => ?_
  have hloader : r.loader b.type.name = .ok ⟨b, r.settings.load, r.settings.partition⟩ := by
    simp [loader, find?_of_ofBindings h (List.mem_of_mem_filter hb)]
  simp [hloader, Except.toOption]

end Replica

end StoredObjects
