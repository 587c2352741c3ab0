import Mathlib.Data.List.Chain
import StoredObjects.Proofs.ObjectType.Stages

/-! # The course of an upgrade

An upgrade takes one step after another for as long as the document is out of date, and looks at the
version again before each. Whatever the bodies of the patches write, the steps run those from the
version of the document on, each once and in ascending order, and each on what the one before it
left, stamped with the next version. The first body that fails ends the upgrade.
-/

namespace StoredObjects

namespace ObjectType

variable {t : ObjectType} {d d' : Document}

structure Application where
  patch : Patch
  given : Document

/-- The bodies that one step runs: that of the patch for the version of the document, unless the
step is refused before. -/
def applications (t : ObjectType) (d : Document) : List Application :=
  if t.chain.isEmpty then []
  else
    match t.knownVersion d with
    | .error _ => []
    | .ok version => (t.chain.patch? version).toList.map fun p => ⟨p, d⟩

/-- Steps are taken as long as the document is out of date. The bodies that they run are noted, and
how it ends. Nothing is said here about whether it ends. -/
inductive Course (t : ObjectType) :
    Document → List Application → Except Halt Document → Prop where
  | refused {d : Document} {e : Failure} (h : t.isOutdated d = .error e) :
      Course t d [] (.error (.failed e))
  | current {d : Document} (h : t.isOutdated d = .ok false) : Course t d [] (.ok d)
  | stopped {d d' : Document} {halt : Halt} (h : t.isOutdated d = .ok true)
      (hstep : t.upgradeOnce d = (d', .error halt)) : Course t d (t.applications d) (.error halt)
  | step {d d' : Document} {later : List Application} {r : Except Halt Document}
      (h : t.isOutdated d = .ok true) (hstep : t.upgradeOnce d = (d', .ok ()))
      (hrest : Course t d' later r) : Course t d (t.applications d ++ later) r

/-- The course of an upgrade is determined by the document. -/
theorem Course.unique {applied applied' : List Application} {r r' : Except Halt Document}
    (h : t.Course d applied r) (h' : t.Course d applied' r') : applied = applied' ∧ r = r' := by
  induction h generalizing applied' r' with
  | refused h =>
    cases h' with
    | refused hother =>
      obtain rfl := Except.error.inj (h.symm.trans hother)
      exact ⟨rfl, rfl⟩
    | current hother => cases h.symm.trans hother
    | stopped hother => cases h.symm.trans hother
    | step hother => cases h.symm.trans hother
  | current h =>
    cases h' with
    | refused hother => cases h.symm.trans hother
    | current hother => exact ⟨rfl, rfl⟩
    | stopped hother => cases h.symm.trans hother
    | step hother => cases h.symm.trans hother
  | stopped h hstep =>
    cases h' with
    | refused hother => cases h.symm.trans hother
    | current hother => cases h.symm.trans hother
    | stopped hother hstep' =>
      obtain ⟨rfl, hhalt⟩ := Prod.mk.inj (hstep.symm.trans hstep')
      exact ⟨rfl, congrArg Except.error (Except.error.inj hhalt)⟩
    | step hother hstep' => cases (Prod.mk.inj (hstep.symm.trans hstep')).2
  | step h hstep hrest ih =>
    cases h' with
    | refused hother => cases h.symm.trans hother
    | current hother => cases h.symm.trans hother
    | stopped hother hstep' => cases (Prod.mk.inj (hstep.symm.trans hstep')).2
    | step hother hstep' hrest' =>
      obtain ⟨rfl, -⟩ := Prod.mk.inj (hstep.symm.trans hstep')
      obtain ⟨rfl, rfl⟩ := ih hrest'
      exact ⟨rfl, rfl⟩

/-- The next body is given what this one left, stamped with the version that the next one is for. -/
def HandsOn (a b : Application) : Prop :=
  ∃ left, a.patch.body a.given = (left, .ok ()) ∧ b.given = left.setVersion b.patch.fromVersion

def EndsWith (t : ObjectType) (last : Application) (r : Except Halt Document) : Prop :=
  match last.patch.body last.given with
  | (left, .ok ()) => last.patch.fromVersion + 1 = t.currentVersion ∧
      r = .ok (left.setVersion t.currentVersion)
  | (_, .error halt) => r = .error halt

/-- The bodies that bring a document on from its version. -/
structure InOrder (t : ObjectType) (d : Document) (applied : List Application)
    (r : Except Halt Document) : Prop where
  own : ∀ a ∈ applied, a.patch ∈ t.chain.patches
  ascending : applied.map (fun a => a.patch.fromVersion) =
    List.range' d.version.toNat applied.length
  starts : applied.head?.map Application.given = some d
  handsOn : applied.IsChain HandsOn
  ends : ∃ last, applied.getLast? = some last ∧ t.EndsWith last r

/-! ## One step -/

theorem isOutdated_eq (hlow : oldestVersion ≤ d.version) (hhigh : d.version ≤ t.currentVersion) :
    t.isOutdated d = .ok (decide (d.version < t.currentVersion)) := by
  have hknown := knownVersion_eq_ok_iff.mpr ⟨hlow, hhigh, rfl⟩
  simp only [isOutdated, hknown, Except.map, Except.ok.injEq, decide_eq_decide]
  omega

theorem upgrade_of_unknown (h : d.version < oldestVersion ∨ t.currentVersion < d.version) :
    t.knownVersion d =
        .error (.unknownDocumentVersion t.name d.version oldestVersion t.currentVersion) ∧
      t.upgrade d = .error (.failed
        (.unknownDocumentVersion t.name d.version oldestVersion t.currentVersion)) := by
  have hknown : t.knownVersion d =
      .error (.unknownDocumentVersion t.name d.version oldestVersion t.currentVersion) := if_pos h
  refine ⟨hknown, ?_⟩
  simp only [upgrade, hknown]

theorem exists_application (hlow : oldestVersion ≤ d.version) (hlt : d.version < t.currentVersion) :
    ∃ p ∈ t.chain.patches, p.fromVersion = d.version.toNat ∧ t.applications d = [⟨p, d⟩] ∧
      t.upgradeOnce d = match p.body d with
        | (d', .ok ()) => (d'.setVersion (p.fromVersion + 1), .ok ())
        | failed => failed := by
  obtain ⟨p, hget, hp, hfrom⟩ := exists_patch? hlow hlt
  have hknown := knownVersion_eq_ok_iff.mpr ⟨hlow, Int.le_of_lt hlt, rfl⟩
  have hsome : t.chain.isEmpty = false := by
    cases hpatches : t.chain.patches with
    | nil => simp [hpatches] at hget
    | cons => simp [PatchChain.isEmpty, hpatches]
  refine ⟨p, List.mem_of_getElem? hget, hfrom, ?_, ?_⟩
  · simp [applications, hsome, hknown, hp]
  · have honce := upgradeOnce_eq hlow hp hlt
    rw [← hfrom] at honce
    exact honce

theorem InOrder.of_stopped {p : Patch} {halt : Halt} (hp : p ∈ t.chain.patches)
    (hfrom : p.fromVersion = d.version.toNat) (hbody : p.body d = (d', .error halt)) :
    t.InOrder d [⟨p, d⟩] (.error halt) := by
  refine ⟨by simpa using hp, by simp [hfrom], rfl, .singleton _, ⟨p, d⟩, rfl, ?_⟩
  simp only [EndsWith, hbody]

theorem InOrder.of_last {p : Patch} (hp : p ∈ t.chain.patches)
    (hfrom : p.fromVersion = d.version.toNat) (hbody : p.body d = (d', .ok ()))
    (hlast : p.fromVersion + 1 = t.currentVersion) :
    t.InOrder d [⟨p, d⟩] (.ok (d'.setVersion t.currentVersion)) := by
  refine ⟨by simpa using hp, by simp [hfrom], rfl, .singleton _, ⟨p, d⟩, rfl, ?_⟩
  simp only [EndsWith, hbody, hlast, and_self]

theorem InOrder.cons {p : Patch} {e : Document} {applied : List Application}
    {r : Except Halt Document} (hp : p ∈ t.chain.patches)
    (hfrom : p.fromVersion = d.version.toNat) (hbody : p.body d = (e, .ok ()))
    (hstamp : d' = e.setVersion (p.fromVersion + 1))
    (hversion : d'.version.toNat = p.fromVersion + 1) (h : t.InOrder d' applied r) :
    t.InOrder d (⟨p, d⟩ :: applied) r := by
  obtain ⟨b, rest, rfl⟩ : ∃ b rest, applied = b :: rest := by
    cases applied with
    | nil => cases h.starts
    | cons b rest => exact ⟨b, rest, rfl⟩
  have hgiven : b.given = d' := Option.some.inj h.starts
  have hascending := h.ascending
  rw [List.length_cons, List.range'_succ, hversion, List.map_cons, List.cons.injEq] at hascending
  obtain ⟨last, hlast, hends⟩ := h.ends
  constructor
  · intro a ha
    rcases List.mem_cons.mp ha with rfl | ha
    · exact hp
    · exact h.own a ha
  · rw [List.map_cons, List.map_cons, hascending.1, hascending.2, ← hfrom]
    rfl
  · rfl
  · refine .cons_cons ⟨e, hbody, ?_⟩ h.handsOn
    rw [hgiven, hstamp, hascending.1]
  · exact ⟨last, by simpa using hlast, hends⟩

/-! ## All steps -/

theorem exists_course (ht : t.VersionsFit) (hlow : oldestVersion ≤ d.version)
    (hhigh : d.version ≤ t.currentVersion) :
    ∃ applied, t.Course d applied (t.upgrade d) ∧
      (d.version = t.currentVersion → applied = []) ∧
      (d.version < t.currentVersion → t.InOrder d applied (t.upgrade d)) := by
  -- by induction on the steps that are left, which no body can change
  induction hn : (t.currentVersion - d.version).toNat generalizing d with
  | zero =>
    have hcurrent : d.version = t.currentVersion := by omega
    have hdone : t.isOutdated d = .ok false := by
      rw [isOutdated_eq hlow hhigh, hcurrent]
      simp
    refine ⟨[], ?_, fun _ => rfl, fun hlt => by omega⟩
    rw [upgrade_of_current hcurrent]
    exact .current hdone
  | succ n ih =>
    have hlt : d.version < t.currentVersion := by omega
    have hold : t.isOutdated d = .ok true := by
      rw [isOutdated_eq hlow hhigh]
      simpa using hlt
    obtain ⟨p, hp, hfrom, happlied, honce⟩ := exists_application hlow hlt
    have hupgrade := upgrade_eq_upgradeOnce ht hlow hlt
    rcases hbody : p.body d with ⟨e, halt | ⟨⟩⟩
    · rw [hbody] at honce
      rw [honce] at hupgrade
      refine ⟨[⟨p, d⟩], ?_, fun h => by omega, fun _ => ?_⟩
      · rw [hupgrade, ← happlied]
        exact .stopped hold honce
      · rw [hupgrade]
        exact .of_stopped hp hfrom hbody
    · rw [hbody] at honce
      rw [honce] at hupgrade
      have hversion := version_of_upgradeOnce ht hlow hlt honce
      obtain ⟨applied, hcourse, hnone, hrest⟩ :=
        ih (d := e.setVersion (p.fromVersion + 1)) (by omega) (by omega) (by omega)
      refine ⟨⟨p, d⟩ :: applied, ?_, fun h => by omega, fun _ => ?_⟩
      · rw [hupgrade]
        have hall := Course.step hold honce hcourse
        rwa [happlied] at hall
      · rw [hupgrade]
        by_cases hmore : (e.setVersion (p.fromVersion + 1)).version < t.currentVersion
        · exact (hrest hmore).cons hp hfrom hbody rfl (by omega)
        · have hend : (e.setVersion (p.fromVersion + 1)).version = t.currentVersion := by omega
          rw [hnone hend]
          simp only [upgrade_of_current hend]
          have hlast : p.fromVersion + 1 = t.currentVersion := by omega
          rw [hlast]
          exact .of_last hp hfrom hbody hlast

/-- An upgrade always ends, in one way only. A document of an unknown version is refused, and one of
the current version is given back as it is, and no body is run on either. For any other the bodies
run in order, until one fails or the current version is reached. What was upgraded is not changed by
another upgrade, and is given together with the old form where that was out of date. -/
theorem upgrade_runs_bodies_in_order (t : ObjectType) (ht : t.VersionsFit) (d : Document) :
    ∃ applied, (∀ applied' r, t.Course d applied' r ↔ applied' = applied ∧ r = t.upgrade d) ∧
      (d.version < oldestVersion ∨ t.currentVersion < d.version →
        applied = [] ∧ t.upgrade d = .error (.failed
          (.unknownDocumentVersion t.name d.version oldestVersion t.currentVersion))) ∧
      (d.version = t.currentVersion → applied = [] ∧ t.upgrade d = .ok d) ∧
      (oldestVersion ≤ d.version → d.version < t.currentVersion →
        t.InOrder d applied (t.upgrade d)) ∧
      ∀ d', t.upgrade d = .ok d' → d'.version = t.currentVersion ∧ t.upgrade d' = .ok d' ∧
        t.upgradeWithPair d =
          .ok (d', if d.version < t.currentVersion then some ⟨d, d'⟩ else none) := by
  have hdone : ∀ d', t.upgrade d = .ok d' → d'.version = t.currentVersion ∧
      t.upgrade d' = .ok d' ∧ t.upgradeWithPair d =
        .ok (d', if d.version < t.currentVersion then some ⟨d, d'⟩ else none) := by
    intro d' h
    refine ⟨version_of_upgrade ht h, upgrade_of_upgrade ht h, ?_⟩
    rw [upgradeWithPair_eq, h]
    rfl
  have hold : oldestVersion ≤ t.currentVersion := Nat.le_add_right _ _
  by_cases hunknown : d.version < oldestVersion ∨ t.currentVersion < d.version
  · obtain ⟨hknown, hupgrade⟩ := upgrade_of_unknown hunknown
    have hcourse : t.Course d [] (t.upgrade d) := by
      rw [hupgrade]
      refine .refused ?_
      rw [isOutdated, hknown]
      rfl
    refine ⟨[], fun applied' r => ⟨fun h => h.unique hcourse, ?_⟩, fun _ => ⟨rfl, hupgrade⟩,
      fun h => by omega, fun _ _ => by omega, hdone⟩
    rintro ⟨rfl, rfl⟩
    exact hcourse
  · obtain ⟨applied, hcourse, hnone, horder⟩ := exists_course ht (d := d) (by omega) (by omega)
    refine ⟨applied, fun applied' r => ⟨fun h => h.unique hcourse, ?_⟩, fun h => absurd h hunknown,
      fun h => ⟨hnone h, upgrade_of_current h⟩, fun _ => horder, hdone⟩
    rintro ⟨rfl, rfl⟩
    exact hcourse

end ObjectType

/-! A type whose first patches leave nothing of a document and write a version of their own. -/

def forgetting : Patch where
  fromVersion := 1
  description := none
  body := fun _ => (.empty, .ok ())

def misdating : Patch where
  fromVersion := 2
  description := none
  body := fun d => (d.setVersion 9, .ok ())

def forgetfulType : ObjectType where
  name := "Fruit"
  collection := "fruits"
  identityProperty := "name"
  routing := .identity
  chain := ⟨[forgetting, misdating, { washing with fromVersion := 3 },
    { grading with fromVersion := 4 }], rfl⟩
  routed := false
  writeBack := true
  excludedFromLoad := false
  keepOnRemove := false

/-- The third body finds no grade to wash, and the fourth is not run. -/
theorem forgotten_pear_stops :
    let applied : List ObjectType.Application :=
      [⟨forgetting, plainPear⟩, ⟨misdating, Document.empty.setVersion 2⟩,
        ⟨{ washing with fromVersion := 3 }, (Document.empty.setVersion 9).setVersion 3⟩]
    let stopped : Except Halt Document := .error (.failed (.conversionFailed "no grade"))
    (∀ applied' r, forgetfulType.Course plainPear applied' r → applied' = applied ∧ r = stopped) ∧
      forgetfulType.InOrder plainPear applied stopped := by
  intro applied stopped
  have hfits : forgetfulType.VersionsFit := by
    unfold ObjectType.VersionsFit
    decide
  obtain ⟨applied', hcourse, -, -, hinorder, -⟩ :=
    ObjectType.upgrade_runs_bodies_in_order forgetfulType hfits plainPear
  have hall : forgetfulType.Course plainPear applied stopped :=
    .step rfl rfl (.step rfl rfl (.stopped rfl rfl))
  obtain ⟨rfl, hstopped⟩ := (hcourse _ _).mp hall
  rw [← hstopped] at hcourse hinorder
  exact ⟨fun applied' r h => (hcourse applied' r).mp h, hinorder (by decide) (by decide)⟩

end StoredObjects
