import StoredObjects.Proofs.ObjectType.Places
import StoredObjects.Proofs.ObjectType.Upgrade
import StoredObjects.Proofs.Replica.Wiring
import StoredObjects.Replica.Tables

/-! # Declarations and what is found of them

Declarations that stand together are found again by their names and by their collections, and so
are the loaders and bindings that a replica makes of them. It does not matter that they are wired
anew, with the types that an index has under their names: every name leads back to the declaration
that brought it.
-/

namespace StoredObjects

open ObjectType (Apart Clashes)

/-! ## What a registry finds -/

namespace Registry

variable {types : List ObjectType} {r : Registry}

/-- Every name and every collection leads to the declaration that has it, and to no other. -/
structure Finds (r : Registry) (types : List ObjectType) : Prop where
  all : r.types = types
  find? : ∀ name t, r.find? name = some t ↔ t ∈ types ∧ t.name = name
  get : ∀ t ∈ types, r.get t.name = .ok t
  unknown : ∀ name, (∀ t ∈ types, t.name ≠ name) → r.get name = .error (.unknownType name)
  byCollection? : ∀ collection t,
    r.byCollection? collection = some t ↔ t ∈ types ∧ t.collection = collection

theorem finds_of_ofList (h : ofList types = .ok r) : r.Finds types := by
  obtain ⟨hapart, rfl⟩ := ofList_eq_ok_iff.mp h
  have hfind : ∀ name t, (Registry.mk types).find? name = some t ↔ t ∈ types ∧ t.name = name :=
    fun name t => find?_key_eq_some_iff (hapart.imp And.left)
  refine ⟨rfl, hfind, fun t ht => ?_, fun name hno => ?_, fun collection t =>
    find?_key_eq_some_iff (hapart.imp And.right)⟩
  · rw [Registry.get, (hfind t.name t).mpr ⟨ht, rfl⟩]
  · have hnone : (Registry.mk types).find? name = none := List.find?_eq_none.mpr fun t ht heq =>
      hno t ht (beq_iff_eq.mp heq)
    rw [Registry.get, hnone]

end Registry

namespace Replica

variable {Object : Type} {settings : Settings} {bindings : List (Binding Object)}
  {r : Replica Object}

/-! ## When a replica is built -/

theorem forM_checkBinding_iff : bindings.forM checkBinding = .ok () ↔
    ∀ b ∈ bindings, b.type.collection = b.collection := by
  refine ⟨collection_eq_of_checked, fun h => ?_⟩
  induction bindings with
  | nil => rfl
  | cons b bindings ih =>
    have hb : checkBinding b = .ok () := if_pos (h b List.mem_cons_self)
    change (checkBinding b >>= fun _ => bindings.forM checkBinding) = .ok ()
    rw [hb]
    exact ih fun c hc => h c (List.mem_cons_of_mem _ hc)

theorem validate_of_ofBindings (h : ofBindings settings bindings = .ok r) :
    settings.validate = .ok () := by
  unfold ofBindings at h
  cases hv : settings.validate with
  | ok u => rfl
  | error e =>
    rw [hv] at h
    cases h

theorem exists_ofBindings_iff : (∃ r, ofBindings settings bindings = .ok r) ↔
    settings.validate = .ok () ∧ (∀ b ∈ bindings, b.type.collection = b.collection) ∧
      (bindings.map Binding.type).Pairwise Apart ∧
      ∃ triage, Sync.Triage.ofSettings settings.sync = .ok triage := by
  constructor
  · rintro ⟨r, h⟩
    obtain ⟨hchecked, hregistry, -, -, htriage⟩ := parts_of_ofBindings h
    exact ⟨validate_of_ofBindings h, collection_eq_of_checked hchecked,
      (Registry.ofList_eq_ok_iff.mp hregistry).1, r.triage, htriage⟩
  · rintro ⟨hvalid, hown, hapart, triage, htriage⟩
    unfold ofBindings
    rw [hvalid, forM_checkBinding_iff.mpr hown, Registry.ofList_of_pairwise hapart, htriage]
    exact ⟨_, rfl⟩

/-! ## Tables -/

namespace Tables

theorem get?_foldl_insert {α : Type} (f : Binding Object → α) (m : TextMap α)
    (bindings : List (Binding Object)) (name : String) :
    (bindings.foldl (fun m b => m.insert b.type.name (f b)) m).get? name =
      ((Binding.find? bindings name).map f).or (m.get? name) := by
  induction bindings generalizing m with
  | nil => rfl
  | cons b bindings ih =>
    have hfind : Binding.find? (b :: bindings) name =
        (Binding.find? bindings name).or (if b.type.name = name then some b else none) := by
      simp only [Binding.find?, List.reverse_cons, List.find?_append, List.find?_singleton,
        beq_iff_eq]
    rw [List.foldl_cons, ih, hfind, TextMap.get?_insert]
    by_cases hname : name = b.type.name
    · cases Binding.find? bindings name <;> simp [hname]
    · cases Binding.find? bindings name <;> simp [hname, Ne.symm hname]

def enter (settings : Settings) (tables : Tables Object) (bindings : List (Binding Object)) :
    Tables Object where
  loaders := bindings.foldl
    (fun m b => m.insert b.type.name ⟨b, settings.load, settings.partition⟩) tables.loaders
  bindings := bindings.foldl (fun m b => m.insert b.type.name b) tables.bindings

theorem foldlM_wire {index : Index} (hindex : ∀ b ∈ bindings, index.get b.type.name = .ok b.type)
    (tables : Tables Object) :
    bindings.foldlM (wire index settings) tables = .ok (tables.enter settings bindings) := by
  induction bindings generalizing tables with
  | nil => rfl
  | cons b bindings ih =>
    have hb : wire index settings tables b =
        .ok ⟨tables.loaders.insert b.type.name ⟨b, settings.load, settings.partition⟩,
          tables.bindings.insert b.type.name b⟩ := by
      unfold wire
      simp only [hindex b List.mem_cons_self]
      rfl
    rw [List.foldlM_cons, hb]
    exact ih (fun c hc => hindex c (List.mem_cons_of_mem _ hc)) _

end Tables

/-- What is found under the names of the types of a replica: the loader and the binding of the one
declaration, with its own type, collection and converter, also in the tables that are wired anew. -/
structure Wired (r : Replica Object) (settings : Settings) (bindings : List (Binding Object)) :
    Prop where
  own : ∀ b ∈ bindings, b.type.collection = b.collection
  registered : Registry.ofList (bindings.map Binding.type) = .ok r.registry
  loader : ∀ b ∈ bindings, r.loader b.type.name = .ok ⟨b, settings.load, settings.partition⟩
  binding : ∀ b ∈ bindings, Binding.find? r.bindings b.type.name = some b
  stranger : ∀ name, (∀ b ∈ bindings, b.type.name ≠ name) →
    r.loader name = .error (.unknownType name) ∧ Binding.find? r.bindings name = none
  tables : ∃ tables, Tables.ofBindings settings bindings = .ok tables ∧ ∀ name,
    tables.loaders.get? name = (r.loader name).toOption ∧
      tables.bindings.get? name = Binding.find? r.bindings name

theorem exists_tables (h : ofBindings settings bindings = .ok r) :
    ∃ tables, Tables.ofBindings settings bindings = .ok tables ∧ ∀ name,
      tables.loaders.get? name = (r.loader name).toOption ∧
        tables.bindings.get? name = Binding.find? r.bindings name := by
  obtain ⟨rfl, rfl, -⟩ := eq_of_ofBindings h
  have hregistry := (parts_of_ofBindings h).2.1
  have hfollows := Index.follows (r.bindings.map Binding.type)
  cases hindex : Index.ofList (r.bindings.map Binding.type) with
  | error halt =>
    cases halt with
    | failed e => cases hregistry.symm.trans ((hfollows.failed e).mp hindex)
    | died => exact absurd hindex hfollows.inRange
  | ok index =>
    obtain ⟨registry, hsame, -, hfind, -⟩ := hfollows.found index hindex
    obtain rfl : r.registry = registry := Except.ok.inj (hregistry.symm.trans hsame)
    have hget : ∀ b ∈ r.bindings, index.get b.type.name = .ok b.type := by
      intro b hb
      have hfound := ((Registry.finds_of_ofList hregistry).find? b.type.name b.type).mpr
        ⟨List.mem_map_of_mem hb, rfl⟩
      unfold Index.get
      rw [hfind, hfound]
      rfl
    refine ⟨Tables.enter r.settings {} r.bindings, ?_, fun name => ⟨?_, ?_⟩⟩
    · unfold Tables.ofBindings
      rw [hindex]
      exact Tables.foldlM_wire hget {}
    · rw [Tables.enter, Tables.get?_foldl_insert, TextMap.get?_empty, Option.or_none]
      unfold Replica.loader
      cases Binding.find? r.bindings name <;> rfl
    · rw [Tables.enter, Tables.get?_foldl_insert, TextMap.get?_empty, Option.or_none,
        Option.map_id']

theorem wired_of_ofBindings (h : ofBindings settings bindings = .ok r) :
    r.Wired settings bindings := by
  obtain ⟨hchecked, hregistry, rfl, rfl, -⟩ := parts_of_ofBindings h
  have hbinding : ∀ b ∈ r.bindings, Binding.find? r.bindings b.type.name = some b :=
    fun b hb => find?_of_ofBindings h hb
  refine ⟨collection_eq_of_checked hchecked, hregistry, fun b hb => ?_, hbinding,
    fun name hno => ?_, exists_tables h⟩
  · rw [Replica.loader, hbinding b hb]
  · have hnone : Binding.find? r.bindings name = none := List.find?_eq_none.mpr fun b hb heq =>
      hno b (List.mem_reverse.mp hb) (beq_iff_eq.mp heq)
    exact ⟨by rw [Replica.loader, hnone], hnone⟩

/-- Declarations are registered exactly when no two have one name and no two have one collection;
otherwise the first that repeats an earlier one is reported, its name before its collection. Names
and collections then lead back to the declarations that have them, which an index of their places
finds without ever looking past the end, and a replica finds the loader and the binding of every
declaration under the name of its type. -/
theorem declarations_found_again {Object : Type} (types : List ObjectType) (settings : Settings)
    (bindings : List (Binding Object)) :
    ((∃ r, Registry.ofList types = .ok r) ↔
      (types.map ObjectType.name).Nodup ∧ (types.map ObjectType.collection).Nodup) ∧
    (∀ e, Registry.ofList types = .error e ↔ ∃ earlier t later, types = earlier ++ t :: later ∧
      earlier.Pairwise Apart ∧ Clashes earlier t e) ∧
    (∀ r, Registry.ofList types = .ok r → r.Finds types) ∧
    Index.Follows types ∧
    ((∃ r, ofBindings settings bindings = .ok r) ↔
      settings.validate = .ok () ∧ (∀ b ∈ bindings, b.type.collection = b.collection) ∧
      (bindings.map Binding.type).Pairwise Apart ∧
      ∃ triage, Sync.Triage.ofSettings settings.sync = .ok triage) ∧
    ∀ r, ofBindings settings bindings = .ok r → r.Wired settings bindings := by
  refine ⟨?_, fun e => Registry.ofList_eq_error_iff, fun r => Registry.finds_of_ofList,
    Index.follows types, exists_ofBindings_iff, fun r => wired_of_ofBindings⟩
  rw [← Registry.pairwise_apart_iff]
  constructor
  · rintro ⟨r, h⟩
    exact (Registry.ofList_eq_ok_iff.mp h).1
  · exact fun h => ⟨_, Registry.ofList_of_pairwise h⟩

/-! Fruits and vines, and fruits that are declared again in the collection of the vines. -/

def vineType : ObjectType := { fruitType with name := "Vine", collection := "vines" }

def vines : Binding Value := ⟨vineType, "vines", "vines", .ofCodec .value "name"⟩

def strayFruitType : ObjectType := { fruitType with collection := "vines" }

def grapeType : ObjectType := { vineType with name := "Grape" }

theorem vines_found_apart :
    (∃ r, ofBindings { sync := { transientPatterns := [] } } [fruits, vines] = .ok r ∧
      r.loader "Vine" = .ok ⟨vines, {}, none⟩ ∧ Binding.find? r.bindings "Fruit" = some fruits) ∧
    Registry.ofList [fruitType, vineType, strayFruitType] =
      .error (.illegalArgument "mirrored type 'Fruit' declared twice") ∧
    Registry.ofList [fruitType, vineType, grapeType] =
      .error (.illegalArgument "collection 'vines' is mapped by both 'Vine' and 'Grape'") := by
  have hapart : [fruitType, vineType].Pairwise Apart :=
    Registry.pairwise_apart_iff.mpr ⟨by decide, by decide⟩
  refine ⟨?_, ?_, ?_⟩
  · obtain ⟨-, -, -, -, hbuilt, hwired⟩ := declarations_found_again []
      { sync := { transientPatterns := [] } } [fruits, vines]
    obtain ⟨r, hr⟩ := hbuilt.mpr ⟨rfl, by simp [fruits, vines, fruitType, vineType], hapart, _, rfl⟩
    exact ⟨r, hr, (hwired r hr).loader vines (by simp), (hwired r hr).binding fruits (by simp)⟩
  · obtain ⟨-, herror, -⟩ := declarations_found_again [fruitType, vineType, strayFruitType]
      {} ([] : List (Binding Value))
    exact (herror _).mpr ⟨[fruitType, vineType], strayFruitType, [], rfl, hapart,
      .name List.mem_cons_self rfl⟩
  · obtain ⟨-, herror, -⟩ := declarations_found_again [fruitType, vineType, grapeType]
      {} ([] : List (Binding Value))
    have howner : vineType ∈ [fruitType, vineType] := by simp
    exact (herror _).mpr ⟨[fruitType, vineType], grapeType, [], rfl, hapart,
      .collection (by decide) howner rfl⟩

end Replica

end StoredObjects
