import StoredObjects.Binding
import StoredObjects.Proofs.Collection.Lookup

/-! # Upgrades

An upgrade ends in the current version, whatever the patches do to the document: each of them stamps
its result, and the chain has no gaps. An upgraded document is not changed by another upgrade, so
that a document and its upgraded form are treated alike from then on.
-/

namespace StoredObjects

namespace Document

theorem version_setVersion (d : Document) {n : Nat} (hn : n < 0x8000000000000000) :
    (d.setVersion n).version = n := by
  have hrange : -0x8000000000000000 ≤ (n : Int) ∧ (n : Int) < 0x8000000000000000 := by omega
  simp [version, setVersion, Value.ofNat, versionOf, hrange]

end Document

namespace ObjectType

variable {t : ObjectType} {d d' : Document}

def KeepsIdentities (t : ObjectType) : Prop :=
  ∀ p ∈ t.chain.patches, ∀ d d', p.apply d = .ok d' → d'.identity? = d.identity?

def VersionsFit (t : ObjectType) : Prop := t.currentVersion < 0x100000000

theorem knownVersion_eq_ok_iff {v : Nat} :
    t.knownVersion d = .ok v ↔
      oldestVersion ≤ d.version ∧ d.version ≤ t.currentVersion ∧ d.version.toNat = v := by
  unfold knownVersion
  split
  · rename_i h
    simp only [reduceCtorEq, false_iff, not_and]
    omega
  · rename_i h
    simp only [Except.ok.injEq]
    omega

theorem upgrade_of_current (h : d.version = t.currentVersion) : t.upgrade d = .ok d := by
  have hold : oldestVersion ≤ t.currentVersion := Nat.le_add_right _ _
  have hv : t.knownVersion d = .ok t.currentVersion :=
    knownVersion_eq_ok_iff.mpr ⟨by omega, by omega, by omega⟩
  have hnone : t.chain.patchesFrom t.currentVersion = [] := by
    simp [PatchChain.patchesFrom, currentVersion, PatchChain.currentVersion, PatchChain.size]
  simp [upgrade, hv, hnone, pure, Except.pure]

theorem upgradeWithPair_eq (t : ObjectType) (d : Document) :
    t.upgradeWithPair d = (t.upgrade d).map fun d' =>
      (d', if d.version < t.currentVersion then some ⟨d, d'⟩ else none) := by
  cases hv : t.knownVersion d with
  | error e => simp [upgradeWithPair, isOutdated, upgrade, hv, Except.map]
  | ok v =>
    obtain ⟨hlow, hhigh, rfl⟩ := knownVersion_eq_ok_iff.mp hv
    by_cases hlt : d.version < t.currentVersion
    · have hnat : d.version.toNat < t.currentVersion := by omega
      simp only [upgradeWithPair, isOutdated, hv, Except.map, hnat, decide_true, hlt, if_true]
      cases t.upgrade d <;> rfl
    · have hnat : ¬ d.version.toNat < t.currentVersion := by omega
      have heq : d.version = t.currentVersion := by omega
      simp only [upgradeWithPair, isOutdated, hv, Except.map, hnat, decide_false, hlt, if_false,
        upgrade_of_current heq]

theorem foldlM_apply_identity? {ps : List Patch}
    (hps : ∀ p ∈ ps, ∀ d d', p.apply d = .ok d' → d'.identity? = d.identity?)
    (h : ps.foldlM (fun d p => p.apply d) d = .ok d') : d'.identity? = d.identity? := by
  induction ps generalizing d with
  | nil =>
    obtain rfl : d = d' := by simpa [pure, Except.pure] using h
    rfl
  | cons p ps ih =>
    rw [List.foldlM_cons] at h
    cases hp : p.apply d with
    | error e =>
      rw [hp] at h
      cases h
    | ok e =>
      rw [hp] at h
      rw [ih (fun q hq => hps q (List.mem_cons_of_mem _ hq)) h]
      exact hps p List.mem_cons_self d e hp

theorem KeepsIdentities.upgrade (ht : t.KeepsIdentities) (h : t.upgrade d = .ok d') :
    d'.identity? = d.identity? := by
  unfold ObjectType.upgrade at h
  split at h
  · cases h
  · exact foldlM_apply_identity? (fun p hp => ht p (List.mem_of_mem_drop hp)) h

theorem foldlM_apply_version {ps : List Patch} (h : ps.foldlM (fun d p => p.apply d) d = .ok d')
    {p : Patch} (hp : ps.getLast? = some p) :
    ∃ e : Document, d' = e.setVersion (p.fromVersion + 1) := by
  induction ps generalizing d with
  | nil => cases hp
  | cons q ps ih =>
    rw [List.foldlM_cons] at h
    unfold Patch.apply at h
    cases hq : q.body d with
    | mk e r =>
      rw [hq] at h
      cases r with
      | error f => cases h
      | ok u =>
        cases ps with
        | nil =>
          obtain rfl : q = p := by simpa using hp
          obtain rfl := Except.ok.inj h
          exact ⟨e, rfl⟩
        | cons q' ps => exact ih h (by simpa using hp)

theorem fromVersion_of_getLast? {p : Patch} (h : t.chain.patches.getLast? = some p) :
    p.fromVersion + 1 = t.currentVersion := by
  have hlast : (t.chain.patches.map Patch.fromVersion).getLast? = some p.fromVersion := by
    simp [h]
  rw [t.chain.contiguous, List.getLast?_range'] at hlast
  split at hlast
  · cases hlast
  · obtain hp := Option.some.inj hlast
    simp only [oldestVersion] at hp
    simp only [currentVersion, PatchChain.currentVersion, PatchChain.size, oldestVersion]
    omega

/-- The current version is far below the size at which a document would lose it. -/
theorem version_of_upgrade (ht : t.VersionsFit) (h : t.upgrade d = .ok d') :
    d'.version = t.currentVersion := by
  unfold upgrade at h
  split at h
  · cases h
  · rename_i v hv
    obtain ⟨hlow, hhigh, rfl⟩ := knownVersion_eq_ok_iff.mp hv
    cases hlast : (t.chain.patchesFrom d.version.toNat).getLast? with
    | none =>
      -- no patch is left to run, so that the document was in the current version
      have hnil := List.getLast?_eq_none_iff.mp hlast
      rw [hnil] at h
      obtain rfl := Except.ok.inj h
      have hlen : t.chain.patches.length ≤ d.version.toNat - oldestVersion :=
        List.drop_eq_nil_iff.mp hnil
      simp only [currentVersion, PatchChain.currentVersion, PatchChain.size] at hhigh ⊢
      omega
    | some p =>
      obtain ⟨e, rfl⟩ := foldlM_apply_version h hlast
      have hp : t.chain.patches.getLast? = some p := by
        unfold PatchChain.patchesFrom at hlast
        rw [List.getLast?_drop] at hlast
        split at hlast
        · cases hlast
        · exact hlast
      rw [fromVersion_of_getLast? hp]
      exact Document.version_setVersion e (Nat.lt_trans ht (by decide))

theorem known_of_upgrade (h : t.upgrade d = .ok d') :
    oldestVersion ≤ d.version ∧ d.version ≤ t.currentVersion := by
  unfold upgrade at h
  split at h
  · cases h
  · rename_i v hv
    obtain ⟨hlow, hhigh, -⟩ := knownVersion_eq_ok_iff.mp hv
    exact ⟨hlow, hhigh⟩

theorem exists_body_of_foldlM_error {ps : List Patch} {halt : Halt}
    (h : ps.foldlM (fun d p => p.apply d) d = .error halt) :
    ∃ p ∈ ps, ∃ e, (p.body e).2 = .error halt := by
  induction ps generalizing d with
  | nil => cases h
  | cons p ps ih =>
    rw [List.foldlM_cons] at h
    cases hp : p.body d with
    | mk e r =>
      cases r with
      | error f =>
        simp only [Patch.apply, hp, bind, Except.bind] at h
        obtain rfl : f = halt := by simpa using h
        exact ⟨p, List.mem_cons_self, d, by rw [hp]⟩
      | ok u =>
        simp only [Patch.apply, hp, bind, Except.bind] at h
        obtain ⟨q, hq, hbody⟩ := ih h
        exact ⟨q, List.mem_cons_of_mem _ hq, hbody⟩

theorem exists_body_of_error (hlow : oldestVersion ≤ d.version)
    (hhigh : d.version ≤ t.currentVersion) {halt : Halt}
    (h : t.upgradeWithPair d = .error halt) :
    ∃ p ∈ t.chain.patches, ∃ e, (p.body e).2 = .error halt := by
  have hknown := knownVersion_eq_ok_iff.mpr ⟨hlow, hhigh, rfl⟩
  rw [upgradeWithPair_eq] at h
  cases hup : t.upgrade d with
  | ok d' => simp [hup, Except.map] at h
  | error f =>
    obtain rfl : f = halt := by simpa [hup, Except.map] using h
    unfold upgrade at hup
    rw [hknown] at hup
    obtain ⟨p, hp, hbody⟩ := exists_body_of_foldlM_error hup
    exact ⟨p, List.mem_of_mem_drop hp, hbody⟩

/-- An upgraded document is in its current form. -/
theorem upgrade_of_upgrade (ht : t.VersionsFit) (h : t.upgrade d = .ok d') :
    t.upgrade d' = .ok d' := upgrade_of_current (version_of_upgrade ht h)

/-- The current form of a document; the document itself where it has none. -/
def latest (t : ObjectType) (d : Document) : Document :=
  match t.upgrade d with
  | .ok d' => d'
  | .error _ => d

theorem latest_of_upgrade (h : t.upgrade d = .ok d') : t.latest d = d' := by simp [latest, h]

end ObjectType

/-! Fruits get a grade when they are upgraded. -/

def grading : Patch where
  fromVersion := 1
  description := none
  body := fun d => (d.insert "grade" (.text "A"), .ok ())

def fruitType : ObjectType where
  name := "Fruit"
  collection := "fruits"
  identityProperty := "name"
  routing := .identity
  chain := ⟨[grading], rfl⟩
  routed := false
  writeBack := true
  excludedFromLoad := false
  keepOnRemove := false

def fruits : Binding Value := ⟨fruitType, "fruits", "fruits", .ofCodec .value "name"⟩

theorem keepsIdentities_fruitType : fruitType.KeepsIdentities := by
  intro p hp d d' h
  obtain rfl : p = grading := by simpa [fruitType] using hp
  obtain rfl : (d.insert "grade" (.text "A")).setVersion 2 = d' := Except.ok.inj h
  have hne : Document.identityField ≠ "grade" := by decide
  simp [Document.identity?, Document.setVersion, Document.get?_insert_of_ne _ _ hne,
    Document.get?_insert_of_ne _ _ Document.versionField_ne_identityField.symm]

end StoredObjects
