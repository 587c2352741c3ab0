import StoredObjects.Proofs.Replica.Sessions
import StoredObjects.Proofs.Store.Gains
import StoredObjects.Proofs.Sync.Course
import StoredObjects.Proofs.Sync.LostUpdate

/-! # Versions that sessions leave

Whatever the patches do, a document that a session writes has the current version of its type, and
all others stay as they are or go. Documents of known versions are therefore never lost to the
version check.
-/

namespace StoredObjects

theorem Document.version_orIdentity (d : Document) (identity : String) :
    (d.orIdentity identity).version = d.version := by
  unfold orIdentity
  split
  · rfl
  · simp [version, setIdentity, get?_insert_of_ne _ _ versionField_ne_identityField]

/-- The documents that a call brings are in the current version of a binding of its store. -/
def Stamps {Object : Type} (bindings : List (Binding Object)) (store : String) (c : Call) : Prop :=
  ∃ b ∈ bindings, b.store = store ∧ c.Brings fun d => d.version = b.type.currentVersion

section Written

variable {Object : Type} {bindings : List (Binding Object)} {b : Binding Object}

theorem Binding.version_of_document (hfit : b.type.VersionsFit) {object : Object} {d : Document}
    (h : b.document object = .ok d) : d.version = b.type.currentVersion := by
  unfold document at h
  cases hd : b.converter.toDocument object with
  | error e =>
    rw [hd] at h
    cases h
  | ok d₀ =>
    rw [hd] at h
    obtain rfl := Except.ok.inj h
    exact d₀.version_setVersion (Nat.lt_trans hfit (by decide))

theorem Load.Loader.permits_stamps {l : Loader Object} (hl : l.binding ∈ bindings)
    (hfit : l.type.VersionsFit) : l.Permits (Stamps bindings) := by
  constructor
  · intro c hc
    exact ⟨l.binding, hl, rfl, Call.brings_of_not_writes hc⟩
  · intro old new h
    exact ⟨l.binding, hl, rfl, ObjectType.version_of_upgrade hfit h⟩

theorem stamps_of_mem_groups (hfit : ∀ b ∈ bindings, b.type.VersionsFit)
    (heq : ∀ b ∈ bindings, ∀ c ∈ bindings, b.collection = c.collection → b = c)
    {stretch : List (Binding Object × Sync.Intent Object)} (hmem : ∀ p ∈ stretch, p.1 ∈ bindings)
    {g : Sync.Group} (hg : g ∈ Sync.groups (Sync.inserted stretch)) :
    Stamps bindings g.store (.insertAll g.documents) := by
  obtain ⟨q, hq, hstore, hall⟩ := Sync.exists_of_mem_groups hg
  have hbinding : ∀ q ∈ Sync.inserted stretch, q.1 ∈ bindings := by
    intro q hq
    obtain ⟨p, hp, hpq, -⟩ := Sync.mem_inserted hq
    exact hpq ▸ hmem p hp
  refine ⟨q.1, hbinding q hq, hstore.symm, fun d hd => ?_⟩
  obtain ⟨q', hq', hc, rfl⟩ := hall d hd
  obtain ⟨p, -, -, hdoc⟩ := Sync.mem_inserted hq'
  have hsame : q'.1 = q.1 := heq q'.1 (hbinding q' hq') q.1 (hbinding q hq) hc
  rw [← hsame]
  exact Binding.version_of_document (hfit q'.1 (hbinding q' hq')) hdoc

theorem stamps_of_mem_planned (hfit : ∀ b ∈ bindings, b.type.VersionsFit)
    (heq : ∀ b ∈ bindings, ∀ c ∈ bindings, b.collection = c.collection → b = c)
    {batch : List (Sync.Intent Object)} {a : Sync.Action} (ha : a ∈ Sync.planned bindings batch)
    {store : String} {c : Call} (hc : a.call? = some (store, c)) : Stamps bindings store c := by
  unfold Sync.planned at ha
  cases hbound : Sync.bound bindings batch with
  | error e => simp [hbound] at ha
  | ok intents =>
    rw [hbound] at ha
    have hmem : ∀ p ∈ intents, p.1 ∈ bindings :=
      fun p hp => Binding.mem_of_find? (Sync.mem_bound hbound p hp).2
    cases Sync.stems_of_mem_plan ha with
    | skipReloaded => cases hc
    | skipKept => cases hc
    | insertAll hsub hg =>
      cases hc
      exact stamps_of_mem_groups hfit heq (fun p hp => hmem p (hsub p hp)) hg
    | @alone p hp hpass =>
      obtain ⟨b, i⟩ := p
      have hb : b ∈ bindings := hmem _ hp
      cases hd : b.document i.object with
      | error e =>
        cases hk : i.kind <;>
          simp [Sync.alone, hd, Sync.Action.call?] at hc
      | ok d =>
        have hv := Binding.version_of_document (hfit b hb) hd
        cases hk : i.kind with
        | insert =>
          simp only [Sync.alone, hk, hd] at hc
          cases hc
          refine ⟨b, hb, rfl, fun e he => ?_⟩
          exact List.mem_singleton.mp he ▸ hv
        | update =>
          simp only [Sync.alone, hk, hd] at hc
          cases hc
          exact ⟨b, hb, rfl, hv⟩
        | remove =>
          cases hid : d.identity? with
          | none => simp [Sync.alone, hk, hd, hid, Sync.Action.call?] at hc
          | some v =>
            simp only [Sync.alone, hk, hd, hid] at hc
            cases hc
            exact ⟨b, hb, rfl, trivial⟩

end Written

/-! ## What is stored -/

structure Stamped {Object : Type} (bindings : List (Binding Object)) (w₀ w : World) : Prop where
  inMemory : w.InMemory
  stored : ∀ b ∈ bindings, Collection.Gains (fun d => d.version = b.type.currentVersion)
    (w₀.contents b.store) (w.contents b.store)
  noted : ∀ b ∈ bindings, ∃ calls, w.journal b.store = w₀.journal b.store ++ calls ∧
    ∀ c ∈ calls, c.Brings fun d => d.version = b.type.currentVersion

section Stamped

variable {Object : Type} {bindings : List (Binding Object)} {w₀ w : World} {store : String}
  {c : Call}

theorem stamped_refl (hw : w.InMemory) : Stamped bindings w w :=
  ⟨hw, fun _ _ => .refl _, fun _ _ => ⟨[], by simp, by simp⟩⟩

theorem brings_of_stamps (hwired : Sync.Wired bindings) (hc : Stamps bindings store c)
    {b : Binding Object} (hb : b ∈ bindings) (hstore : b.store = store) :
    c.Brings fun d => d.version = b.type.currentVersion := by
  obtain ⟨b', hb', hstore', hbrings⟩ := hc
  have hcollection := hwired.collection_of_store b hb b' hb' (hstore.trans hstore'.symm)
  rw [hwired.eq_of_collection b hb b' hb' hcollection]
  exact hbrings

theorem exists_noted (hwired : Sync.Wired bindings) (hc : Stamps bindings store c)
    {b : Binding Object} (hb : b ∈ bindings) {journal noted : List Call} (hjournal :
      ∃ calls, journal = noted ++ calls ∧
        ∀ c ∈ calls, c.Brings fun d => d.version = b.type.currentVersion) :
    ∃ calls, (journal ++ if store = b.store then [c] else []) = noted ++ calls ∧
      ∀ c ∈ calls, c.Brings fun d => d.version = b.type.currentVersion := by
  obtain ⟨calls, rfl, hcalls⟩ := hjournal
  by_cases hstore : store = b.store
  · refine ⟨calls ++ [c], by simp [hstore], fun c' hc' => ?_⟩
    rcases List.mem_append.mp hc' with hc' | hc'
    · exact hcalls c' hc'
    · exact List.mem_singleton.mp hc' ▸ brings_of_stamps hwired hc hb hstore.symm
  · exact ⟨calls, by simp [hstore], hcalls⟩

theorem Stamped.answered (h : Stamped bindings w₀ w) (hwired : Sync.Wired bindings)
    (hc : Stamps bindings store c) : Stamped bindings w₀ (w.answer store c).1 := by
  refine ⟨h.inMemory.answer store c, fun b hb => (h.stored b hb).trans ?_, fun b hb => ?_⟩
  · by_cases hstore : b.store = store
    · subst hstore
      have hgains := Store.gains_answer (h.inMemory b.store)
        (fun d identity hd => (d.version_orIdentity identity).trans hd)
        (brings_of_stamps hwired hc hb rfl)
      simpa [World.contents, World.answer] using hgains
    · simp only [World.contents, World.answer, World.store_setStore_of_ne w _ hstore]
      exact .refl _
  · have hjournal : (w.answer store c).1.journal b.store =
        w.journal b.store ++ if store = b.store then [c] else [] := by
      rw [World.journal_answer h.inMemory]
      by_cases hstore : store = b.store
      · simp [hstore]
      · simp [hstore, Function.update_of_ne (Ne.symm hstore)]
    rw [hjournal]
    exact exists_noted hwired hc hb (h.noted b hb)

theorem Stamped.noteFailed (h : Stamped bindings w₀ w) (hwired : Sync.Wired bindings)
    (hc : Stamps bindings store c) : Stamped bindings w₀ (w.noteFailed store c) := by
  refine ⟨h.inMemory.noteFailed store c, fun b hb => ?_, fun b hb => ?_⟩
  · rw [World.contents_noteFailed]
    exact h.stored b hb
  · have hjournal : (w.noteFailed store c).journal b.store =
        w.journal b.store ++ if store = b.store then [c] else [] := by
      by_cases hstore : store = b.store
      · simp [World.journal, World.noteFailed, Store.note, hstore]
      · simp [World.journal, World.noteFailed, World.store_setStore_of_ne w _ (Ne.symm hstore),
          hstore]
    rw [hjournal]
    exact exists_noted hwired hc hb (h.noted b hb)

end Stamped

/-- Documents of known versions stay so through any session, and all that the session writes is in
the current version. An upgrade can then fail in a patch only, never at the check of the version. -/
theorem session_keeps_versions {Object : Type} {settings : Settings}
    {bindings : List (Binding Object)} {r r' : Replica Object}
    (hbuilt : Replica.ofBindings settings bindings = .ok r)
    (hfit : ∀ b ∈ bindings, b.type.VersionsFit) {w w' : World} (hw : w.InMemory)
    (hhosts : Sync.Hosts w bindings) {operations : List (Operation Object)}
    (hsession : Session r w operations r' w') {b : Binding Object} (hb : b ∈ bindings)
    (hknown : ∀ d ∈ (w.contents b.store).documents,
      oldestVersion ≤ d.version ∧ d.version ≤ b.type.currentVersion) :
    (∀ d ∈ (w'.contents b.store).documents,
      oldestVersion ≤ d.version ∧ d.version ≤ b.type.currentVersion) ∧
    (∀ k d, w'.contents.at? (b.store, k) = some d →
      w.contents.at? (b.store, k) = some d ∨ d.version = b.type.currentVersion) ∧
    (∃ calls, w'.journal b.store = w.journal b.store ++ calls ∧
      ∀ c ∈ calls, c.Brings fun d => d.version = b.type.currentVersion) ∧
    ∀ d ∈ (w'.contents b.store).documents,
      (∃ outdated, b.type.isOutdated d = .ok outdated) ∧
      ∀ halt, b.type.upgradeWithPair d = .error halt →
        ∃ p ∈ b.type.chain.patches, ∃ e, (p.body e).2 = .error halt := by
  have hwired := Sync.wired_of_ofBindings hbuilt hhosts
  obtain ⟨-, hbindings, -⟩ := Replica.eq_of_ofBindings hbuilt
  have hstamped : Stamped bindings w w' :=
    hsession.invariant hbindings
      (fun t batch => Sync.calls_synchronize fun a ha store c hc =>
        stamps_of_mem_planned hfit hwired.eq_of_collection ha hc)
      (fun l hl => Load.Loader.permits_stamps hl (hfit l.binding hl))
      (fun _ _ _ hc h => h.answered hwired hc) (fun _ _ _ hc h => h.noteFailed hwired hc)
      (stamped_refl hw)
  have hrange : ∀ d ∈ (w'.contents b.store).documents,
      oldestVersion ≤ d.version ∧ d.version ≤ b.type.currentVersion := by
    intro d hd
    obtain ⟨k, hk⟩ := Collection.mem_documents_iff.mp hd
    rcases hstamped.stored b hb k d hk with hold | hnew
    · exact hknown d (Collection.mem_documents_iff.mpr ⟨k, hold⟩)
    · have hleast : oldestVersion ≤ b.type.currentVersion := Nat.le_add_right _ _
      omega
  refine ⟨hrange, hstamped.stored b hb, hstamped.noted b hb, fun d hd => ⟨?_, fun halt h => ?_⟩⟩
  · have hcheck := ObjectType.knownVersion_eq_ok_iff.mpr ⟨(hrange d hd).1, (hrange d hd).2, rfl⟩
    exact ⟨_, by rw [ObjectType.isOutdated, hcheck]; rfl⟩
  · exact ObjectType.exists_body_of_error (hrange d hd).1 (hrange d hd).2 h

/-! The write-back of the apple fails at first. -/

def gradingSession : List (Operation Value) :=
  [.loadAll .inOrder "Fruit", .synchronize [Sync.fruitIntent .insert "pear"],
    .loadById "Fruit" (.text "apple")]

theorem fruits_stay_loadable :
    ∃ r r' w', Replica.ofBindings { sync := { transientPatterns := [] } } [fruits] = .ok r ∧
      Session r Sync.appleWorld gradingSession r' w' ∧
      (w'.contents "fruits").documents.map Document.version = [2, 2] ∧
      ∀ d ∈ (w'.contents "fruits").documents,
        ∃ outdated, fruitType.isOutdated d = .ok outdated := by
  let r : Replica Value :=
    { Sync.fruitReplica with settings := { sync := { transientPatterns := [] } } }
  let first := ((Operation.loadAll .inOrder "Fruit").program r).runFailing 1 (.connectivity "down")
    Sync.appleWorld
  let second :=
    ((Operation.synchronize [Sync.fruitIntent .insert "pear"]).program first.2).run first.1
  let third := ((Operation.loadById "Fruit" (.text "apple")).program second.2).run second.1
  have hsession : Session r Sync.appleWorld gradingSession third.2 third.1 :=
    .cons (Program.disturbed_runFailing 1 _ _ _) (.cons (Program.disturbed_run _ _)
      (.cons (Program.disturbed_run _ _) (.nil _ _)))
  have hhosts : Sync.Hosts Sync.appleWorld [fruits] := by
    intro b hb
    obtain rfl := List.mem_singleton.mp hb
    rfl
  have hfit : ∀ b ∈ [fruits], b.type.VersionsFit := by
    intro b hb
    obtain rfl := List.mem_singleton.mp hb
    change 2 < 0x100000000
    decide
  have hknown : ∀ d ∈ (Sync.appleWorld.contents fruits.store).documents,
      oldestVersion ≤ d.version ∧ d.version ≤ fruits.type.currentVersion := by
    intro d hd
    obtain rfl : d = .ofIdentity (.text "apple") := List.mem_singleton.mp hd
    decide
  have hkept := session_keeps_versions Sync.fruitReplica_built hfit Sync.inMemory_appleWorld hhosts
    hsession List.mem_cons_self hknown
  refine ⟨r, third.2, third.1, Sync.fruitReplica_built, hsession, ?_, fun d hd => ?_⟩
  · decide +kernel
  · exact (hkept.2.2.2 d hd).1

end StoredObjects
