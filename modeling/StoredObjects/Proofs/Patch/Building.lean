import Mathlib.Algebra.Order.Ring.Nat
import Mathlib.Data.List.Sort
import StoredObjects.Patch.Chain

/-! # Chains from lists of patches

A list of patches makes a chain exactly when its versions are those from the oldest on, each once,
in some order. The chain is then that of the set of the patches. Otherwise the report names the
smallest version that occurs twice or, when there is none, the first place at which the sorted
versions leave the numbers from the oldest version on.
-/

namespace StoredObjects

/-! ## Repeated versions -/

structure SmallestRepeated (vs : List Nat) (v : Nat) : Prop where
  repeated : 2 ≤ vs.count v
  least : ∀ w, 2 ≤ vs.count w → v ≤ w

theorem SmallestRepeated.unique {vs : List Nat} {v w : Nat} (hv : SmallestRepeated vs v)
    (hw : SmallestRepeated vs w) : v = w :=
  Nat.le_antisymm (hv.least w hw.repeated) (hw.least v hv.repeated)

theorem SmallestRepeated.perm {vs ws : List Nat} (h : vs.Perm ws) {v : Nat} :
    SmallestRepeated vs v ↔ SmallestRepeated ws v := by
  have hcount : ∀ w, vs.count w = ws.count w := fun w => h.count_eq w
  constructor
  · exact fun hv => ⟨hcount v ▸ hv.repeated, fun w hw => hv.least w (hcount w ▸ hw)⟩
  · exact fun hv => ⟨hcount v ▸ hv.repeated, fun w hw => hv.least w (hcount w ▸ hw)⟩

theorem SmallestRepeated.not_nodup {vs : List Nat} {v : Nat} (h : SmallestRepeated vs v) :
    ¬ vs.Nodup := by
  intro hnodup
  have hone := List.nodup_iff_count_le_one.mp hnodup v
  have htwo := h.repeated
  omega

theorem two_le_count_cons_of_lt {a : Nat} {vs : List Nat} (h : ∀ b ∈ vs, a < b) (w : Nat) :
    2 ≤ (a :: vs).count w ↔ 2 ≤ vs.count w := by
  by_cases hw : a = w
  · have hzero : vs.count w = 0 := List.count_eq_zero.mpr fun hmem => by
      have hlt := h w hmem
      omega
    simp [hw, hzero]
  · simp [hw]

/-- In an ascending list the first number that equals its predecessor is the smallest repeated. -/
theorem firstRepeated?_eq_some_iff {vs : List Nat} (h : vs.Pairwise (· ≤ ·)) {v : Nat} :
    firstRepeated? vs = some v ↔ SmallestRepeated vs v := by
  induction vs with
  | nil => exact ⟨nofun, fun hv => by simpa using hv.repeated⟩
  | cons a vs ih =>
    obtain ⟨hle, htail⟩ := List.pairwise_cons.mp h
    cases vs with
    | nil =>
      refine ⟨nofun, fun hv => ?_⟩
      have htwo := hv.repeated
      have hone : [a].count v ≤ 1 := List.count_le_length
      omega
    | cons b rest =>
      by_cases hab : a = b
      · -- the first two are equal, and nothing is below them
        have hleast : SmallestRepeated (a :: b :: rest) b := by
          refine ⟨by simp [hab], fun w hw => ?_⟩
          have hmem : w ∈ a :: b :: rest := List.count_pos_iff.mp (by omega)
          rcases List.mem_cons.mp hmem with rfl | hmem
          · exact Nat.le_of_eq hab.symm
          · exact hab ▸ hle w hmem
        rw [firstRepeated?, if_pos hab]
        exact ⟨fun heq => Option.some.inj heq ▸ hleast, fun hv => congrArg some (hleast.unique hv)⟩
      · -- the first stands alone
        have hlt : ∀ w ∈ b :: rest, a < w := by
          have hab : a < b := Nat.lt_of_le_of_ne (hle b List.mem_cons_self) hab
          intro w hw
          rcases List.mem_cons.mp hw with rfl | hw
          · exact hab
          · exact Nat.lt_of_lt_of_le hab ((List.pairwise_cons.mp htail).1 w hw)
        have hsame := two_le_count_cons_of_lt hlt
        rw [firstRepeated?, if_neg hab, ih htail]
        constructor
        · exact fun hv => ⟨(hsame v).mpr hv.repeated, fun w hw => hv.least w ((hsame w).mp hw)⟩
        · exact fun hv => ⟨(hsame v).mp hv.repeated, fun w hw => hv.least w ((hsame w).mpr hw)⟩

theorem firstRepeated?_eq_none_iff {vs : List Nat} (h : vs.Pairwise (· ≤ ·)) :
    firstRepeated? vs = none ↔ vs.Nodup := by
  induction vs with
  | nil => simp [firstRepeated?]
  | cons a vs ih =>
    obtain ⟨hle, htail⟩ := List.pairwise_cons.mp h
    cases vs with
    | nil => simp [firstRepeated?]
    | cons b rest =>
      unfold firstRepeated?
      split
      · rename_i hab
        simp [hab]
      · rename_i hab
        have hnot : a ∉ b :: rest := by
          intro hmem
          have hab' := hle b List.mem_cons_self
          rcases List.mem_cons.mp hmem with rfl | hmem
          · exact hab rfl
          · have hba := (List.pairwise_cons.mp htail).1 a hmem
            omega
        rw [List.nodup_cons, ih htail]
        exact (and_iff_right hnot).symm

/-! ## Missing versions -/

/-- The first place, counted from the oldest version on, that does not hold its own number, and what
it holds. -/
structure FirstGap (vs : List Nat) (place found : Nat) : Prop where
  within : oldestVersion ≤ place
  holds : vs[place - oldestVersion]? = some found
  differs : found ≠ place
  before : ∀ i, oldestVersion ≤ i → i < place → vs[i - oldestVersion]? = some i

theorem firstGap?_eq_some {start place found : Nat} {vs : List Nat}
    (h : firstGap? start vs = some (place, found)) :
    start ≤ place ∧ vs[place - start]? = some found ∧ found ≠ place ∧
      ∀ i, start ≤ i → i < place → vs[i - start]? = some i := by
  induction vs generalizing start with
  | nil => cases h
  | cons v vs ih =>
    unfold firstGap? at h
    split at h
    · rename_i hv
      obtain ⟨hle, hholds, hdiffers, hbefore⟩ := ih h
      refine ⟨by omega, ?_, hdiffers, fun i hi hlt => ?_⟩
      · have hindex : place - start = place - (start + 1) + 1 := by omega
        rw [hindex, List.getElem?_cons_succ, hholds]
      · by_cases heq : i = start
        · simp [heq, hv]
        · have hindex : i - start = i - (start + 1) + 1 := by omega
          rw [hindex, List.getElem?_cons_succ, hbefore i (by omega) hlt]
    · rename_i hv
      cases h
      exact ⟨Nat.le_refl _, by simp, hv, fun i hi hlt => by omega⟩

theorem FirstGap.unique {vs : List Nat} {place place' found found' : Nat}
    (h : FirstGap vs place found) (h' : FirstGap vs place' found') :
    place = place' ∧ found = found' := by
  have hplace : place = place' := by
    rcases Nat.lt_trichotomy place place' with hlt | heq | hlt
    · have hown := h'.before place h.within hlt
      exact absurd (Option.some.inj (h.holds.symm.trans hown)) h.differs
    · exact heq
    · have hown := h.before place' h'.within hlt
      exact absurd (Option.some.inj (h'.holds.symm.trans hown)) h'.differs
  subst hplace
  exact ⟨rfl, Option.some.inj (h.holds.symm.trans h'.holds)⟩

theorem not_firstGap_range' {n place found : Nat} :
    ¬ FirstGap (List.range' oldestVersion n) place found := by
  intro h
  have hlt := (List.getElem?_eq_some_iff.mp h.holds).1
  have hholds := h.holds
  rw [List.getElem?_range' (by simpa using hlt)] at hholds
  have hown := Option.some.inj hholds
  have hwithin := h.within
  exact absurd (by omega) h.differs

theorem firstGap?_eq_some_iff {vs : List Nat} {place found : Nat} :
    firstGap? oldestVersion vs = some (place, found) ↔ FirstGap vs place found := by
  constructor
  · intro h
    obtain ⟨hwithin, hholds, hdiffers, hbefore⟩ := firstGap?_eq_some h
    exact ⟨hwithin, hholds, hdiffers, hbefore⟩
  · intro h
    cases hgap : firstGap? oldestVersion vs with
    | none => exact absurd (firstGap?_eq_none_iff.mp hgap ▸ h) not_firstGap_range'
    | some gap =>
      obtain ⟨place', found'⟩ := gap
      obtain ⟨hwithin, hholds, hdiffers, hbefore⟩ := firstGap?_eq_some hgap
      obtain ⟨rfl, rfl⟩ := h.unique ⟨hwithin, hholds, hdiffers, hbefore⟩
      rfl

/-! ## Building -/

namespace PatchChain

variable {patches patches' : List Patch} {chain chain' : PatchChain} {e e' : Failure}

/-- The report on a list of patches that makes no chain. -/
inductive Reported (patches : List Patch) : Failure → Prop where
  | repeated {v : Nat} (h : SmallestRepeated (patches.map Patch.fromVersion) v) :
      Reported patches (.invalidPatchChain s!"duplicate patch for version {v}")
  | gap {ascending : List Nat} {place found : Nat}
      (hnodup : (patches.map Patch.fromVersion).Nodup)
      (hperm : ascending.Perm (patches.map Patch.fromVersion))
      (hascending : ascending.Pairwise (· ≤ ·)) (h : FirstGap ascending place found) :
      Reported patches (.invalidPatchChain
        s!"expected patch for version {place} but found {found}")

theorem Reported.unique (h : Reported patches e) (h' : Reported patches e') : e = e' := by
  cases h with
  | repeated hv =>
    cases h' with
    | repeated hw => rw [hv.unique hw]
    | gap hnodup => exact absurd hnodup hv.not_nodup
  | gap hnodup hperm hascending hgap =>
    cases h' with
    | repeated hv => exact absurd hnodup hv.not_nodup
    | gap _ hperm' hascending' hgap' =>
      obtain rfl := (hperm.trans hperm'.symm).eq_of_pairwise
        (fun _ _ _ _ => Nat.le_antisymm) hascending hascending'
      obtain ⟨rfl, rfl⟩ := hgap.unique hgap'
      rfl

theorem not_reported_of_perm
    (h : (patches.map Patch.fromVersion).Perm (List.range' oldestVersion patches.length)) :
    ¬ Reported patches e := by
  have hnodup := h.nodup_iff.mpr List.nodup_range'
  intro hreported
  cases hreported with
  | repeated hv => exact hv.not_nodup hnodup
  | gap _ hperm hascending hgap =>
    obtain rfl := (hperm.trans h).eq_of_pairwise (fun _ _ _ _ => Nat.le_antisymm) hascending
      (List.pairwise_le_range' ..)
    exact not_firstGap_range' hgap

def sorted (patches : List Patch) : List Patch :=
  patches.mergeSort fun p q => p.fromVersion ≤ q.fromVersion

theorem sorted_perm (patches : List Patch) : (sorted patches).Perm patches :=
  List.mergeSort_perm ..

theorem pairwise_sorted (patches : List Patch) :
    ((sorted patches).map Patch.fromVersion).Pairwise (· ≤ ·) := by
  have hsorted : (sorted patches).Pairwise fun p q => decide (p.fromVersion ≤ q.fromVersion) := by
    refine List.pairwise_mergeSort (fun p q r hpq hqr => ?_) (fun p q => ?_) patches
    · exact decide_eq_true (Nat.le_trans (of_decide_eq_true hpq) (of_decide_eq_true hqr))
    · simpa using Nat.le_total p.fromVersion q.fromVersion
  exact List.pairwise_map.mpr (hsorted.imp fun h => of_decide_eq_true h)

inductive Built (patches : List Patch) : Except Failure PatchChain → Prop where
  | chain {chain : PatchChain} (h : chain.patches = sorted patches) : Built patches (.ok chain)
  | reported {e : Failure} (h : Reported patches e) : Built patches (.error e)

theorem built_ofList (patches : List Patch) : Built patches (ofList patches) := by
  have hperm := (sorted_perm patches).map Patch.fromVersion
  have hascending := pairwise_sorted patches
  unfold ofList
  dsimp only
  split
  · rename_i v hv
    exact .reported (.repeated ((SmallestRepeated.perm hperm).mp
      ((firstRepeated?_eq_some_iff hascending).mp hv)))
  · rename_i hnone
    have hnodup := hperm.nodup_iff.mp ((firstRepeated?_eq_none_iff hascending).mp hnone)
    split
    · rename_i place found hgap
      exact .reported (.gap hnodup hperm hascending (firstGap?_eq_some_iff.mp hgap))
    · exact .chain rfl

theorem reported_of_ofList (h : ofList patches = .error e) : Reported patches e := by
  have hbuilt := built_ofList patches
  rw [h] at hbuilt
  cases hbuilt with
  | reported hreported => exact hreported

theorem perm_of_ofList (h : ofList patches = .ok chain) : chain.patches.Perm patches := by
  have hbuilt := built_ofList patches
  rw [h] at hbuilt
  cases hbuilt with
  | chain hchain => exact hchain ▸ sorted_perm patches

theorem exists_ofList_iff : (∃ chain, ofList patches = .ok chain) ↔
    (patches.map Patch.fromVersion).Perm (List.range' oldestVersion patches.length) := by
  constructor
  · rintro ⟨chain, h⟩
    have hperm := perm_of_ofList h
    have hversions := hperm.map Patch.fromVersion
    rw [chain.contiguous, hperm.length_eq] at hversions
    exact hversions.symm
  · intro h
    cases hresult : ofList patches with
    | ok chain => exact ⟨chain, rfl⟩
    | error e => exact absurd (reported_of_ofList hresult) (not_reported_of_perm h)

theorem ofList_eq_error_iff : ofList patches = .error e ↔ Reported patches e := by
  refine ⟨reported_of_ofList, fun h => ?_⟩
  cases hresult : ofList patches with
  | ok chain => exact absurd h (not_reported_of_perm (exists_ofList_iff.mp ⟨chain, hresult⟩))
  | error e' => rw [(reported_of_ofList hresult).unique h]

/-! ## What is found in a chain -/

theorem fromVersion_of_getElem? {i : Nat} {p : Patch} (h : chain.patches[i]? = some p) :
    p.fromVersion = oldestVersion + i := by
  obtain ⟨hi, rfl⟩ := List.getElem?_eq_some_iff.mp h
  have hversions := congrArg (fun versions => versions[i]?) chain.contiguous
  simp only [List.getElem?_map, List.getElem?_eq_getElem hi, Option.map_some,
    List.getElem?_range' hi, Nat.one_mul] at hversions
  exact Option.some.inj hversions

theorem patch?_eq_some_iff {v : Nat} {p : Patch} :
    chain.patch? v = some p ↔ p ∈ chain.patches ∧ p.fromVersion = v := by
  unfold patch?
  constructor
  · intro h
    split at h
    · cases h
    · have hfrom := fromVersion_of_getElem? h
      exact ⟨List.mem_of_getElem? h, by omega⟩
  · rintro ⟨hp, rfl⟩
    obtain ⟨i, hi⟩ := List.mem_iff_getElem?.mp hp
    have hfrom := fromVersion_of_getElem? hi
    have hindex : p.fromVersion - oldestVersion = i := by omega
    rw [if_neg (by omega), hindex, hi]

theorem patch?_eq_none_iff {v : Nat} :
    chain.patch? v = none ↔ v < oldestVersion ∨ chain.currentVersion ≤ v := by
  unfold patch? currentVersion size
  split
  · rename_i hlow
    exact iff_of_true rfl (Or.inl hlow)
  · rw [List.getElem?_eq_none_iff]
    omega

/-- The current version follows the newest that has a patch. -/
theorem currentVersion_eq_newestPatched? :
    chain.currentVersion = (chain.newestPatched?.map fun v => v + 1).getD oldestVersion := by
  rw [newestPatched?, versions, chain.contiguous, List.getLast?_range', currentVersion, size]
  split
  · rename_i hempty
    simp [hempty]
  · simp only [Option.map_some, Option.getD_some]
    omega

theorem ext_patches (h : chain.patches = chain'.patches) : chain = chain' := by
  cases chain; cases chain'; cases h; rfl

theorem eq_of_mem_iff (h : ∀ p, p ∈ chain.patches ↔ p ∈ chain'.patches) : chain = chain' := by
  have hfound : ∀ v, chain.patch? v = chain'.patch? v := fun v =>
    Option.ext fun p => by rw [patch?_eq_some_iff, patch?_eq_some_iff, h p]
  refine ext_patches (List.ext_getElem? fun i => ?_)
  have hnot : ¬ oldestVersion + i < oldestVersion := by omega
  have hi := hfound (oldestVersion + i)
  rwa [patch?, patch?, if_neg hnot, if_neg hnot, Nat.add_sub_cancel_left] at hi

/-- The chain that a set of patches makes up: every version from the first to the last leads to the
one patch that starts from it. -/
structure IsChainOf (chain : PatchChain) (patches : List Patch) : Prop where
  versions : chain.versions = List.range' 1 patches.length
  currentVersion : chain.currentVersion = patches.length + 1
  found : ∀ v, 1 ≤ v → v ≤ patches.length → ∃ p ∈ patches, p.fromVersion = v ∧
    chain.patch? v = some p ∧ ∀ q ∈ patches, q.fromVersion = v → q = p
  missing : ∀ v, v < 1 ∨ patches.length < v → chain.patch? v = none
  anyOrder : ∀ patches', patches'.Perm patches → ofList patches' = .ok chain
  sameSet : ∀ patches' chain', ofList patches' = .ok chain' → (∀ p, p ∈ patches' ↔ p ∈ patches) →
    chain' = chain

theorem isChainOf_of_ofList (h : ofList patches = .ok chain) : IsChainOf chain patches := by
  have hperm := perm_of_ofList h
  have hlength : chain.patches.length = patches.length := hperm.length_eq
  have hcurrent : chain.currentVersion = patches.length + 1 := by
    rw [PatchChain.currentVersion, size, hlength]
    exact Nat.add_comm ..
  have hset : ∀ patches' chain', ofList patches' = .ok chain' →
      (∀ p, p ∈ patches' ↔ p ∈ patches) → chain' = chain := by
    intro patches' chain' h' hsame
    refine eq_of_mem_iff fun p => ?_
    rw [(perm_of_ofList h').mem_iff, hsame, hperm.mem_iff]
  refine ⟨?_, hcurrent, fun v hlow hhigh => ?_, fun v hv => ?_, fun patches' hperm' => ?_, hset⟩
  · rw [PatchChain.versions, chain.contiguous, hlength]
    rfl
  · cases hv : chain.patch? v with
    | none =>
      rw [patch?_eq_none_iff, hcurrent, oldestVersion] at hv
      omega
    | some p =>
      obtain ⟨hp, hfrom⟩ := patch?_eq_some_iff.mp hv
      refine ⟨p, hperm.mem_iff.mp hp, hfrom, rfl, fun q hq hqv => ?_⟩
      have hfound := patch?_eq_some_iff.mpr ⟨hperm.mem_iff.mpr hq, hqv⟩
      exact Option.some.inj (hfound.symm.trans hv)
  · rw [patch?_eq_none_iff, hcurrent, oldestVersion]
    omega
  · obtain ⟨chain', h'⟩ := exists_ofList_iff.mpr
      (hperm'.length_eq ▸ (hperm'.map _).trans (exists_ofList_iff.mp ⟨chain, h⟩))
    rw [h', hset patches' chain' h' fun p => hperm'.mem_iff]

/-- A list of patches makes a chain exactly when its versions are `1, …, n` in some order, and then
the chain of its set; a failure reports the smallest repeated version before the first gap. As long
as there are fewer patches than versions, no version leaves 32 bits and the largest has no patch. -/
theorem chain_of_patch_set (patches : List Patch) (hfew : patches.length < 2 ^ 32 - 1) :
    ((∃ chain, ofList patches = .ok chain) ↔
      (patches.map Patch.fromVersion).Perm (List.range' 1 patches.length)) ∧
    (∀ chain, ofList patches = .ok chain → IsChainOf chain patches ∧
      chain.currentVersion < 2 ^ 32 ∧ chain.patch? 0 = none ∧
      chain.patch? (2 ^ 32 - 1) = none) ∧
    ∀ e, ofList patches = .error e ↔ Reported patches e := by
  refine ⟨exists_ofList_iff, fun chain h => ?_, fun e => ofList_eq_error_iff⟩
  have hchain := isChainOf_of_ofList h
  refine ⟨hchain, ?_, hchain.missing 0 (by omega), hchain.missing _ (by omega)⟩
  rw [hchain.currentVersion]
  omega

/-! Patches that leave documents as they are. -/

def idle (v : Nat) : Patch where
  fromVersion := v
  description := none
  body := fun d => (d, .ok ())

/-- Two patches in the wrong order make a chain; a repeated version is reported before a gap below
it. -/
theorem idle_patches_in_any_order :
    (∃ chain, ofList [idle 2, idle 1] = .ok chain ∧ chain.versions = [1, 2] ∧
      chain.patch? 2 = some (idle 2) ∧ chain.patch? (2 ^ 32 - 1) = none) ∧
    ofList [idle 3, idle 1, idle 3] =
      .error (.invalidPatchChain "duplicate patch for version 3") := by
  obtain ⟨hiff, hchain, -⟩ := chain_of_patch_set [idle 2, idle 1] (by decide)
  obtain ⟨-, -, hreported⟩ := chain_of_patch_set [idle 3, idle 1, idle 3] (by decide)
  constructor
  · obtain ⟨chain, h⟩ := hiff.mpr (List.Perm.swap ..)
    obtain ⟨hof, -, -, hlargest⟩ := hchain chain h
    refine ⟨chain, h, hof.versions, ?_, hlargest⟩
    obtain ⟨p, -, -, hp, hsole⟩ := hof.found 2 (by decide) (by decide)
    rw [hp, hsole (idle 2) List.mem_cons_self rfl]
  · refine (hreported _).mpr (.repeated (v := 3) ⟨by decide, fun w hw => ?_⟩)
    have hmem : w ∈ [3, 1, 3] := List.count_pos_iff.mp (Nat.lt_of_lt_of_le Nat.two_pos hw)
    have hcases : w = 3 ∨ w = 1 ∨ w = 3 := by simpa using hmem
    rcases hcases with rfl | rfl | rfl
    · exact Nat.le_refl 3
    · exact absurd hw (by decide)
    · exact Nat.le_refl 3

end PatchChain

end StoredObjects
