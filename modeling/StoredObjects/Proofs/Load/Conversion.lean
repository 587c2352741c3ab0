import StoredObjects.Load.Pool
import StoredObjects.Proofs.ObjectType.Upgrade

/-! # Conversions

The work on a document succeeds when its upgrade, its conversion and the decision over it do. What a
pool of workers makes of a reading is what this work makes of every document, in some order.
-/

namespace StoredObjects

section Traversal

variable {ε α β : Type} {f : α → Except ε β} {as : List α} {bs : List β}

theorem exists_ok_of_mapM (h : as.mapM f = .ok bs) : ∀ a ∈ as, ∃ b, f a = .ok b := by
  induction as generalizing bs with
  | nil => simp
  | cons a as ih =>
    rw [List.mapM_cons] at h
    cases ha : f a with
    | error e =>
      rw [ha] at h
      cases h
    | ok b =>
      cases has : as.mapM f with
      | error e =>
        rw [ha, has] at h
        cases h
      | ok cs =>
        intro a' ha'
        rcases List.mem_cons.mp ha' with rfl | ha'
        · exact ⟨b, ha⟩
        · exact ih has a' ha'

theorem mapM_of_forall_ok {g : α → β} (h : ∀ a ∈ as, f a = .ok (g a)) :
    as.mapM f = .ok (as.map g) := by
  induction as with
  | nil => rfl
  | cons a as ih =>
    rw [List.mapM_cons, h a List.mem_cons_self, ih fun b hb => h b (List.mem_cons_of_mem _ hb)]
    rfl

theorem filterAuxM_eq_ok_iff {p : α → Except ε Bool} {q : α → Bool}
    (hq : ∀ a b, p a = .ok b → q a = b) {as acc kept : List α} :
    as.filterAuxM p acc = .ok kept ↔
      (∀ a ∈ as, ∃ b, p a = .ok b) ∧ kept = (as.filter q).reverse ++ acc := by
  induction as generalizing acc with
  | nil => simp [List.filterAuxM, pure, Except.pure, eq_comm]
  | cons a as ih =>
    cases ha : p a with
    | error e => simp [List.filterAuxM, ha, bind, Except.bind]
    | ok b =>
      have hstep : (a :: as).filterAuxM p acc = as.filterAuxM p (cond b (a :: acc) acc) := by
        simp [List.filterAuxM, ha, bind, Except.bind]
      rw [hstep, ih]
      cases b <;> simp [ha, hq a _ ha]

theorem filterM_eq_ok_iff {p : α → Except ε Bool} {q : α → Bool}
    (hq : ∀ a b, p a = .ok b → q a = b) {as kept : List α} :
    as.filterM p = .ok kept ↔ (∀ a ∈ as, ∃ b, p a = .ok b) ∧ kept = as.filter q := by
  unfold List.filterM
  cases has : as.filterAuxM p [] with
  | error e =>
    have hno : ¬ ∀ a ∈ as, ∃ b, p a = .ok b := by
      intro hall
      rw [(filterAuxM_eq_ok_iff hq).mpr ⟨hall, rfl⟩] at has
      cases has
    constructor
    · intro h
      cases h
    · rintro ⟨hall, -⟩
      exact absurd hall hno
  | ok reversed =>
    obtain ⟨hall, rfl⟩ := (filterAuxM_eq_ok_iff hq).mp has
    constructor
    · intro h
      exact ⟨hall, by simpa using (Except.ok.inj h).symm⟩
    · rintro ⟨-, rfl⟩
      simp [bind, Except.bind, pure, Except.pure]

end Traversal

namespace Load

variable {Object : Type} {step : Step Object}

theorem Step.process_eq_ok_iff {raw : Document} {r : Option (Loaded Object)} :
    step.process raw = .ok r ↔
      ∃ d object b, step.type.upgrade raw = .ok d ∧ step.converter.toObject d = .ok object ∧
        step.filter.accepts d object = .ok b ∧
        r = if b then some ⟨object,
          if raw.version < step.type.currentVersion then some ⟨raw, d⟩ else none⟩ else none := by
  have hok : ∀ {ε ε' α : Type} (f : ε → ε') (a : α), (Except.ok a).mapError f = .ok a :=
    fun _ _ => rfl
  have herror : ∀ {ε ε' α : Type} (f : ε → ε') (e : ε),
      (Except.error e : Except ε α).mapError f = .error (f e) := fun _ _ => rfl
  unfold Step.process
  rw [ObjectType.upgradeWithPair_eq]
  cases hu : step.type.upgrade raw with
  | error e => simp [Except.map, herror, bind, Except.bind]
  | ok d =>
    cases ho : step.converter.toObject d with
    | error e => simp [Except.map, hok, herror, bind, Except.bind, ho]
    | ok object =>
      cases hb : step.filter.accepts d object with
      | error e => simp [Except.map, hok, herror, bind, Except.bind, ho, hb]
      | ok b =>
        cases b <;> simp [Except.map, hok, bind, Except.bind, ho, hb, pure, Except.pure, eq_comm]

/-- What the step makes of a document; nothing also where it fails. -/
def Step.outcome (step : Step Object) (raw : Document) : Option (Loaded Object) :=
  match step.process raw with
  | .ok r => r
  | .error _ => none

theorem Step.outcome_of_ok {raw : Document} {r : Option (Loaded Object)}
    (h : step.process raw = .ok r) : step.outcome raw = r := by simp [outcome, h]

theorem mapM_process (raws : List Document) (h : ∀ raw ∈ raws, ∃ r, step.process raw = .ok r) :
    raws.mapM step.process = .ok (raws.map step.outcome) := by
  refine mapM_of_forall_ok fun raw hraw => ?_
  obtain ⟨r, hr⟩ := h raw hraw
  rw [hr, Step.outcome_of_ok hr]

/-- A conversion that succeeds read everything, and succeeded at every document. -/
theorem of_convert_eq_ok {workers : Nat} {pick : Nat → Nat} {reading : List (Item Document)}
    {o : Outcome Object} (h : convert step workers pick reading = .ok o) :
    ∃ raws, Item.readAll reading = (raws, .complete) ∧
      (∀ raw ∈ raws, ∃ r, step.process raw = .ok r) ∧
      o = ⟨(arrange pick workers 0 raws).map step.outcome⟩ := by
  rcases hread : Item.readAll reading with ⟨raws, ending⟩
  unfold convert at h
  rw [hread] at h
  cases ending with
  | complete =>
    refine ⟨raws, rfl, ?_⟩
    have hperm := arrange_perm pick workers 0 raws
    cases hm : (arrange pick workers 0 raws).mapM step.process with
    | error e =>
      simp only [hm] at h
      cases h
    | ok rs =>
      have hok : ∀ raw ∈ arrange pick workers 0 raws, ∃ r, step.process raw = .ok r :=
        exists_ok_of_mapM hm
      refine ⟨fun raw hraw => hok raw (hperm.mem_iff.mpr hraw), ?_⟩
      simp only [mapM_process _ hok] at h
      exact (Except.ok.inj h).symm
  | failed e =>
    simp only [bind, Except.bind] at h
    split at h <;> cases h
  | stalled =>
    simp only [bind, Except.bind] at h
    split at h <;> cases h

theorem convert_eq_ok {workers : Nat} {pick : Nat → Nat} {raws : List Document}
    (h : ∀ raw ∈ raws, ∃ r, step.process raw = .ok r) :
    convert step workers pick (raws.map .value) =
      .ok ⟨(arrange pick workers 0 raws).map step.outcome⟩ := by
  have hperm := arrange_perm pick workers 0 raws
  unfold convert
  rw [Item.readAll_map_value]
  simp only [mapM_process _ fun raw hraw => h raw (hperm.mem_iff.mp hraw)]
  rfl

def Step.object? (step : Step Object) (raw : Document) : Option Object :=
  (step.outcome raw).map Loaded.object

def Step.upgrade? (step : Step Object) (raw : Document) : Option Upgrade :=
  (step.outcome raw).bind Loaded.upgrade

/-- Only documents that are out of date are written back, in their current form. -/
theorem Step.of_upgrade? {raw : Document} {u : Upgrade} (h : step.upgrade? raw = some u) :
    u.old = raw ∧ step.type.upgrade raw = .ok u.new ∧ raw.version < step.type.currentVersion := by
  obtain ⟨loaded, hloaded, hu⟩ := Option.bind_eq_some_iff.mp h
  unfold outcome at hloaded
  split at hloaded
  · rename_i r hr
    obtain ⟨d, object, b, hd, -, -, hform⟩ := process_eq_ok_iff.mp (hloaded ▸ hr)
    cases b with
    | false => cases hform
    | true =>
      obtain rfl := Option.some.inj hform
      by_cases hlt : raw.version < step.type.currentVersion
      · simp only [hlt, if_true, Option.some.injEq] at hu
        exact hu ▸ ⟨rfl, hd, hlt⟩
      · simp [hlt] at hu
  · cases hloaded

theorem upgrades_map_outcome (step : Step Object) (raws : List Document) :
    (Outcome.mk (raws.map step.outcome)).upgrades = raws.filterMap step.upgrade? := by
  simp only [Outcome.upgrades, Outcome.loaded, List.filterMap_map, List.filterMap_filterMap]
  rfl

theorem objects_map_outcome (step : Step Object) (raws : List Document) :
    (Outcome.mk (raws.map step.outcome)).objects =
      raws.filterMap step.object? := by
  simp only [Outcome.objects, Outcome.loaded, List.filterMap_map, List.map_filterMap]
  rfl

end Load

end StoredObjects
