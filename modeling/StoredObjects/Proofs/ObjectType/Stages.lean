import StoredObjects.Proofs.ObjectType.Upgrade
import StoredObjects.Proofs.Patch.Building

/-! # Upgrades in stages

A program that knows only the first patches of a chain brings documents to a version in between. A
later program, which knows them all, takes them on from there, and comes to what it would have made
of the documents as they were at first. That is so for any patches, also for those that fail
half-way or write into the version themselves.
-/

namespace StoredObjects

namespace ObjectType

variable {s t : ObjectType} {d d' : Document} {p : Patch}

/-! ## One step at a time -/

theorem exists_patch? (hlow : oldestVersion ≤ d.version) (hlt : d.version < t.currentVersion) :
    ∃ p, t.chain.patches[d.version.toNat - oldestVersion]? = some p ∧
      t.chain.patch? d.version.toNat = some p ∧ p.fromVersion = d.version.toNat := by
  have hi : d.version.toNat - oldestVersion < t.chain.patches.length := by
    simp only [currentVersion, PatchChain.currentVersion, PatchChain.size] at hlt
    omega
  have hget := List.getElem?_eq_getElem hi
  have hfrom := PatchChain.fromVersion_of_getElem? hget
  refine ⟨_, hget, ?_, by omega⟩
  unfold PatchChain.patch?
  rw [if_neg (by omega), hget]

theorem upgradeOnce_eq (hlow : oldestVersion ≤ d.version)
    (hp : t.chain.patch? d.version.toNat = some p) (hlt : d.version < t.currentVersion) :
    t.upgradeOnce d = match p.body d with
      | (d', .ok ()) => (d'.setVersion (d.version.toNat + 1), .ok ())
      | failed => failed := by
  have hknown : t.knownVersion d = .ok d.version.toNat :=
    knownVersion_eq_ok_iff.mpr ⟨hlow, Int.le_of_lt hlt, rfl⟩
  have hsome : t.chain.isEmpty = false := by
    cases hpatches : t.chain.patches with
    | nil => simp [PatchChain.patch?, hpatches] at hp
    | cons => simp [PatchChain.isEmpty, hpatches]
  rcases hbody : p.body d with ⟨d', e | ⟨⟩⟩
  · simp [upgradeOnce, hsome, hknown, hp, hbody]
  · simp [upgradeOnce, hsome, hknown, hp, hbody]

/-- An upgrade runs one step as long as the document is out of date. -/
theorem upgrade_eq_upgradeOnce (ht : t.VersionsFit) (hlow : oldestVersion ≤ d.version)
    (hlt : d.version < t.currentVersion) :
    t.upgrade d = match t.upgradeOnce d with
      | (d', .ok ()) => t.upgrade d'
      | (_, .error e) => .error e := by
  obtain ⟨p, hget, hp, hfrom⟩ := exists_patch? hlow hlt
  have hknown : t.knownVersion d = .ok d.version.toNat :=
    knownVersion_eq_ok_iff.mpr ⟨hlow, Int.le_of_lt hlt, rfl⟩
  have hfirst : t.chain.patchesFrom d.version.toNat =
      p :: t.chain.patchesFrom (d.version.toNat + 1) := by
    obtain ⟨hi, rfl⟩ := List.getElem?_eq_some_iff.mp hget
    have hnext : d.version.toNat + 1 - oldestVersion = d.version.toNat - oldestVersion + 1 := by
      omega
    rw [PatchChain.patchesFrom, PatchChain.patchesFrom, hnext, List.drop_eq_getElem_cons hi]
  rw [upgradeOnce_eq hlow hp hlt]
  unfold upgrade
  rw [hknown]
  simp only [hfirst, List.foldlM_cons, Patch.apply, hfrom]
  cases hbody : p.body d with
  | mk e r =>
    cases r with
    | error halt => rfl
    | ok u =>
      have hstamp : (e.setVersion (d.version.toNat + 1)).version =
          ((d.version.toNat + 1 : Nat) : Int) := by
        refine Document.version_setVersion e ?_
        have hfits : t.currentVersion < 0x100000000 := ht
        omega
      have hreached : t.knownVersion (e.setVersion (d.version.toNat + 1)) =
          .ok (d.version.toNat + 1) := by
        refine knownVersion_eq_ok_iff.mpr ⟨?_, ?_, ?_⟩ <;> rw [hstamp]
        · simp only [oldestVersion]
          omega
        · omega
        · exact Int.toNat_natCast _
      simp only [hreached]
      rfl

theorem version_of_upgradeOnce (ht : t.VersionsFit) (hlow : oldestVersion ≤ d.version)
    (hlt : d.version < t.currentVersion) (h : t.upgradeOnce d = (d', .ok ())) :
    d'.version = d.version + 1 := by
  obtain ⟨p, -, hp, -⟩ := exists_patch? hlow hlt
  rw [upgradeOnce_eq hlow hp hlt] at h
  cases hbody : p.body d with
  | mk e r =>
    cases r with
    | error halt =>
      rw [hbody] at h
      cases (Prod.mk.inj h).2
    | ok u =>
      rw [hbody] at h
      obtain ⟨rfl, -⟩ := Prod.mk.inj h
      have hfits : t.currentVersion < 0x100000000 := ht
      rw [Document.version_setVersion e (by omega)]
      omega

/-! ## The first patches of a chain -/

section Stages

variable (hst : s.chain.patches <+: t.chain.patches)
include hst

theorem currentVersion_le_of_prefix : s.currentVersion ≤ t.currentVersion :=
  Nat.add_le_add_left hst.length_le oldestVersion

/-- Where the shorter chain has a step, it is that of the longer one. -/
theorem upgradeOnce_of_prefix (hlow : oldestVersion ≤ d.version)
    (hlt : d.version < s.currentVersion) : s.upgradeOnce d = t.upgradeOnce d := by
  have hle := currentVersion_le_of_prefix hst
  have hlt' : d.version < t.currentVersion := by omega
  obtain ⟨p, hget, hp, -⟩ := exists_patch? hlow hlt
  obtain ⟨q, hget', hq, -⟩ := exists_patch? hlow hlt'
  obtain ⟨hi, -⟩ := List.getElem?_eq_some_iff.mp hget
  obtain rfl : p = q := by
    obtain ⟨rest, hrest⟩ := hst
    rw [← hrest, List.getElem?_append_left hi, hget] at hget'
    exact Option.some.inj hget'
  rw [upgradeOnce_eq hlow hp hlt, upgradeOnce_eq hlow hq hlt']

/-- An upgrade by the first patches of a chain, and after it one by all of them, is one upgrade by
all of them. A failure of the first upgrade is also that of the one at once. -/
theorem upgrade_in_stages (ht : t.VersionsFit) (hlow : oldestVersion ≤ d.version)
    (hhigh : d.version ≤ s.currentVersion) : (s.upgrade d >>= t.upgrade) = t.upgrade d := by
  have hle := currentVersion_le_of_prefix hst
  have hs : s.VersionsFit := Nat.lt_of_le_of_lt hle ht
  -- by induction on the steps that the shorter chain has left
  induction hn : (s.currentVersion - d.version).toNat generalizing d with
  | zero =>
    have hcurrent : d.version = s.currentVersion := by omega
    rw [upgrade_of_current hcurrent]
    rfl
  | succ n ih =>
    have hlt : d.version < s.currentVersion := by omega
    rw [upgrade_eq_upgradeOnce hs hlow hlt, upgrade_eq_upgradeOnce ht hlow (by omega),
      upgradeOnce_of_prefix hst hlow hlt]
    cases hstep : t.upgradeOnce d with
    | mk d' r =>
      cases r with
      | error halt => rfl
      | ok u =>
        have hversion := version_of_upgradeOnce ht hlow (by omega) hstep
        exact ih (by omega) (by omega) (by omega)

end Stages

end ObjectType

/-! Fruits that are graded by an earlier program and washed by a later one. -/

def washing : Patch where
  fromVersion := 2
  description := none
  body := fun d => match d.get? "grade" with
    | some grade => (d.erase "grade" |>.insert "washed" grade, .ok ())
    | none => (d, .error (.failed (.conversionFailed "no grade")))

def washedType : ObjectType := { fruitType with chain := ⟨[grading, washing], rfl⟩ }

def plainPear : Document := .ofIdentity (.text "pear")

def ungradedPear : Document := plainPear.setVersion 2

theorem pear_washed_in_stages :
    (fruitType.upgrade plainPear >>= washedType.upgrade) = washedType.upgrade plainPear ∧
      (∃ d, washedType.upgrade plainPear = .ok d ∧ d.get? "washed" = some (.text "A")) ∧
      (fruitType.upgrade ungradedPear >>= washedType.upgrade) =
        .error (.failed (.conversionFailed "no grade")) := by
  have hfits : washedType.VersionsFit := by
    unfold ObjectType.VersionsFit
    decide
  have hst : fruitType.chain.patches <+: washedType.chain.patches := ⟨[washing], rfl⟩
  refine ⟨ObjectType.upgrade_in_stages hst hfits (by decide) (by decide), ⟨_, rfl, rfl⟩, ?_⟩
  rw [ObjectType.upgrade_in_stages hst hfits (by decide) (by decide)]
  rfl

end StoredObjects
