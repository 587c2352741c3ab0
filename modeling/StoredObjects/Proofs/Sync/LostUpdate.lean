import StoredObjects.Proofs.Load.Calls
import StoredObjects.Proofs.Sync.Plan

/-! # A batch beside a load

A load reads once and then writes the upgraded documents back, one call for each. What it writes was
computed from the reading, and it is written in place of whatever is stored under the identity by
then. A batch that runs at the same time is therefore kept where its last call came after the last
write-back of the document, and overwritten otherwise; removed documents come back in the same way.
-/

namespace StoredObjects

namespace Call

/-- A call that a load makes whose upgrades keep identities: a reading, or a write-back. -/
def Loads : Call → Prop
  | findAll | findShare _ | findById _ | findByQuery _ => True
  | replace old new => new.identity? = old.identity?
  | insert _ | insertAll _ | update _ | delete _ => False

def names (k : String) : Call → Bool
  | insert d | update d | delete d => d.key? == some k
  | insertAll ds => ds.any fun d => d.key? == some k
  | replace _ new => new.key? == some k
  | findAll | findShare _ | findById _ | findByQuery _ => false

def writtenBack? : Call → Option Document
  | replace _ new => some new
  | _ => none

end Call

def leftByLoad? (k : String) (calls : List Call) : Option Document :=
  (calls.reverse.find? (Call.names k)).bind Call.writtenBack?

theorem leftByLoad?_append (k : String) (calls : List Call) (c : Call) :
    leftByLoad? k (calls ++ [c]) =
      if c.names k then c.writtenBack? else leftByLoad? k calls := by
  unfold leftByLoad?
  by_cases h : c.names k <;> simp [h]

/-! ## The calls of a load -/

namespace Load.Loader

variable {Object : Type} {l : Loader Object}

theorem permits_loads (hl : l.type.KeepsIdentities) : l.Permits fun _ c => c.Loads := by
  constructor
  · intro c hc
    cases c <;> trivial
  · intro old new h
    exact hl.upgrade h

theorem calls_loadAll (hl : l.type.KeepsIdentities) (schedule : Schedule) :
    (l.loadAll schedule).Calls fun _ c => c.Loads := (permits_loads hl).loadAll schedule

end Load.Loader

namespace Store

variable {s : Store}

/-- A write-back that keeps the identity puts the new form in place of whatever is stored; without
an identity it does nothing. -/
theorem collection_answer_replace (hs : s.InMemory) {old new : Document}
    (h : new.identity? = old.identity?) :
    (s.answer (.replace old new)).1.collection =
      match new.key? with
      | some k => s.collection.put k new
      | none => s.collection := by
  have hkey : old.key? = new.key? := by simp [Document.key?, h]
  rw [answer_of_inMemory hs]
  cases hk : new.key? with
  | none =>
    simp only [effect, Collection.replace, Collection.keyFor, hk, bind, Except.bind, settle]
    rfl
  | some k =>
    rw [effect, Collection.replace_of_key?_eq (hkey.trans hk) hk]
    rfl

theorem get?_answer_of_loads (hs : s.InMemory) {c : Call} (hc : c.Loads) (k : String) :
    (s.answer c).1.collection.stored.get? k =
      if c.names k then c.writtenBack? else s.collection.stored.get? k := by
  cases c with
  | replace old new =>
    rw [collection_answer_replace hs hc]
    cases hk : new.key? with
    | none => simp [Call.names, hk]
    | some j =>
      by_cases h : k = j
      · subst h
        simp [Call.names, hk, Call.writtenBack?]
      · have hne : ¬ j = k := fun heq => h heq.symm
        simp [Call.names, hk, hne, TextMap.get?_insert_of_ne _ _ h]
  | insert => exact hc.elim
  | insertAll => exact hc.elim
  | update => exact hc.elim
  | delete => exact hc.elim
  | _ =>
    rw [answer_of_inMemory hs]
    rfl

theorem taken_of_loads {c : Call} (hc : c.Loads) : taken c = 0 := by
  cases c with
  | insert => exact hc.elim
  | insertAll => exact hc.elim
  | _ => rfl

end Store

namespace Sync

open Program

variable {Object : Type}

/-- The stores hold what the batch alone makes of them so far, but for the documents that a
write-back was the last to name. -/
structure Overlaid (w₀ : World) (τ : Contents) (issued : String → Nat) (w : World) : Prop where
  inMemory : w.InMemory
  supplies : w.supplies = w₀.supplies
  issued : w.issued = issued
  stored : ∀ store, ∃ calls, w.journal store = w₀.journal store ++ calls ∧
    ∀ k, w.contents.at? (store, k) = (leftByLoad? k calls).or (τ.at? (store, k))

section Overlaid

variable {w₀ w w' : World} {τ : Contents} {issued : String → Nat}

theorem overlaid_refl (hw : w.InMemory) : Overlaid w w.contents w.issued w :=
  ⟨hw, rfl, rfl, fun store => ⟨[], by simp, fun k => rfl⟩⟩

theorem Overlaid.free (h : Overlaid w₀ τ issued w) {place : Place}
    (hfree : w.contents.at? place = none) : τ.at? place = none := by
  obtain ⟨calls, -, hstored⟩ := h.stored place.1
  have := hstored place.2
  rw [hfree] at this
  exact (Option.or_eq_none_iff.mp this.symm).2

theorem Overlaid.answered (h : Overlaid w₀ τ issued w) {store : String} {c : Call}
    (hc : c.Loads) : Overlaid w₀ τ issued (w.answer store c).1 := by
  refine ⟨h.inMemory.answer store c, ?_, ?_, fun store' => ?_⟩
  · rw [World.supplies_answer h.inMemory, h.supplies]
  · rw [World.issued_answer h.inMemory, Store.taken_of_loads hc]
    exact (Function.update_eq_self store w.issued).trans h.issued
  · obtain ⟨calls, hjournal, hstored⟩ := h.stored store'
    rw [World.journal_answer h.inMemory]
    by_cases hstore : store' = store
    · subst hstore
      refine ⟨calls ++ [c], by simp [hjournal], fun k => ?_⟩
      rw [leftByLoad?_append]
      have hget : (w.answer store' c).1.contents.at? (store', k) =
          if c.names k then c.writtenBack? else w.contents.at? (store', k) := by
        have := Store.get?_answer_of_loads (h.inMemory store') hc k
        simpa [Contents.at?, World.contents, World.answer] using this
      rw [hget]
      by_cases hn : c.names k
      · cases c with
        | replace old new => simp [hn, Call.writtenBack?]
        | insert => exact hc.elim
        | insertAll => exact hc.elim
        | update => exact hc.elim
        | delete => exact hc.elim
        | _ => cases hn
      · simp [hn, hstored k]
    · refine ⟨calls, by simp [hstore, hjournal], fun k => ?_⟩
      rw [← hstored k]
      simp [Contents.at?, World.contents, World.answer, World.store_setStore_of_ne w _ hstore]

theorem Overlaid.environment (h : Overlaid w₀ τ issued w)
    (hsteps : Relation.ReflTransGen (Answered fun _ c => c.Loads) w w') :
    Overlaid w₀ τ issued w' := by
  induction hsteps with
  | refl => exact h
  | tail _ hstep ih =>
    obtain ⟨store, c, hc, rfl⟩ := hstep
    exact ih.answered hc

/-- A call of the batch that does what an action is to do. It names the places of the action, but
for those of documents that get their identities from the store; those are free. -/
structure Performs (w w' : World) (a : Action) (store : String) (c : Call) : Prop where
  journal : w'.journal = Function.update w.journal store (w.journal store ++ [c])
  contents : w'.contents = a.effect w.contents
  within : ∀ place, a.Names place → place.1 = store
  names : ∀ k, c.names k = true → a.Names (store, k)
  free : ∀ k, a.Names (store, k) → c.names k = false → w.contents.at? (store, k) = none
  noWriteBack : c.writtenBack? = none

theorem Overlaid.performed (h : Overlaid w₀ τ issued w) {a : Action} (ha : a.Identified)
    (hok : a.verdict w.contents = .ok ()) (store : String) (c : Call)
    (hc : Performs w w' a store c) (store' : String) :
    ∃ calls, w'.journal store' = w₀.journal store' ++ calls ∧
      ∀ k, w'.contents.at? (store', k) =
        (leftByLoad? k calls).or ((a.effect τ).at? (store', k)) := by
  have hokτ := Action.verdict_of_free ha hok fun place => h.free
  obtain ⟨calls, hjournal, hstored⟩ := h.stored store'
  rw [hc.journal, hc.contents]
  by_cases hstore : store' = store
  · subst hstore
    refine ⟨calls ++ [c], by simp [hjournal], fun k => ?_⟩
    rw [leftByLoad?_append]
    by_cases hn : a.Names (store', k)
    · rw [Action.at?_effect_of_verdict ha hok hn, Action.at?_effect_of_verdict ha hokτ hn]
      cases hck : c.names k with
      | true => simp [hc.noWriteBack]
      | false =>
        have hnone := (hstored k).symm.trans (hc.free k hn hck)
        simp [(Option.or_eq_none_iff.mp hnone).1]
    · have hck : ¬ c.names k = true := fun hck => hn (hc.names k hck)
      rw [Action.at?_effect_of_not_names ha hn, Action.at?_effect_of_not_names ha hn, if_neg hck]
      exact hstored k
  · refine ⟨calls, by simp [hstore, hjournal], fun k => ?_⟩
    have hn : ¬ a.Names (store', k) := fun hn => hstore (hc.within _ hn)
    rw [Action.at?_effect_of_not_names ha hn, Action.at?_effect_of_not_names ha hn]
    exact hstored k

/-- An action of the batch that succeeds also succeeds where the batch is alone. -/
theorem Overlaid.attempted (h : Overlaid w₀ τ issued w) {a : Action} (ha : a.Planned)
    (hok : (a.attempt.run w).2 = .ok ()) :
    (a.resolve w₀.supplies issued).verdict τ = .ok () ∧
      Overlaid w₀ ((a.resolve w₀.supplies issued).effect τ) (a.issue issued)
        (a.attempt.run w).1 := by
  have hids := Action.identified_resolve ha w₀.supplies issued
  obtain ⟨hmem, hsupplies, hissued, hcontents, hverdict⟩ := Action.attempted h.inMemory ha
  rw [h.supplies, h.issued] at hcontents hverdict
  rw [hverdict] at hok
  refine ⟨Action.verdict_of_free hids hok fun place => h.free, hmem, hsupplies.trans h.supplies,
    by rw [hissued, h.issued], ?_⟩
  cases a with
  | skipReloaded => exact h.stored
  | skipKept => exact h.stored
  | refuse => cases hok
  | insertAll g =>
    refine h.performed hids hok g.store (.insertAll g.documents)
      ⟨World.journal_answer h.inMemory g.store (.insertAll g.documents), hcontents,
        fun place hn => hn.1, fun k hk => ?_,
        fun k hn _ => Action.at?_eq_none_of_verdict hids hok hn, rfl⟩
    obtain ⟨d, hd, hdk⟩ := List.any_eq_true.mp hk
    have hkey : d.key? = some k := by simpa using hdk
    exact ⟨rfl, d, Store.mem_identified_of_key? hd hkey _, hkey⟩
  | update store collection d =>
    refine h.performed hids hok store (.update d)
      ⟨World.journal_answer h.inMemory store (.update d), hcontents, fun place hn => hn.1,
        fun k hk => ?_, fun k hn hk => ?_, rfl⟩
    · exact ⟨rfl, by simpa [Call.names] using hk⟩
    · simp [Call.names, hn.2] at hk
  | remove store collection v =>
    refine h.performed hids hok store (.delete (.ofIdentity v))
      ⟨World.journal_answer h.inMemory store (.delete (.ofIdentity v)), hcontents,
        fun place hn => hn.1, fun k hk => ?_, fun k hn hk => ?_, rfl⟩
    · exact ⟨rfl, by simpa [Call.names, Document.key?_ofIdentity ha] using hk⟩
    · simp [Call.names, Document.key?_ofIdentity ha, hn.2] at hk

end Overlaid

section Beside

variable {t : Triage} {p : Progress} {a : Action} {as : List Action} {w₀ w w' : World}
  {R : World → World → Prop} {notices : List Notice} {report : Report}

theorem beside_attempt {v : Except Failure Unit} (h : Beside R w a.attempt w' v) :
    ∃ u, Relation.ReflTransGen R w u ∧ v = (a.attempt.run u).2 ∧
      Relation.ReflTransGen R (a.attempt.run u).1 w' := by
  cases a with
  | insertAll g => exact h.of_perform
  | update store collection d => exact h.of_perform
  | remove store collection v => exact h.of_perform
  | _ =>
    obtain ⟨hv, hsteps⟩ := h.of_done
    exact ⟨w, .refl, hv, hsteps⟩

theorem failedOperations_le (h : Beside R w (carryOut t p as) w' (notices, .ok report)) :
    p.report.failedOperations ≤ report.failedOperations := by
  induction as generalizing p w with
  | nil =>
    obtain ⟨heq, -⟩ := Beside.of_done h
    simp only [Prod.mk.injEq, Except.ok.injEq] at heq
    exact Nat.le_of_eq (congrArg Report.failedOperations heq.2).symm
  | cons a as ih =>
    rw [carryOut_cons] at h
    obtain ⟨u, v, -, hrest⟩ := h.of_bind
    cases v with
    | ok =>
      have hle := ih hrest
      simpa using hle
    | error e =>
      simp only [proceed] at hrest
      split at hrest
      · have hle := ih hrest
        simp only at hle
        omega
      · obtain ⟨heq, -⟩ := Beside.of_done hrest
        simp at heq

theorem of_beside_carryOut_cons (h : Beside R w (carryOut t p (a :: as)) w' (notices, .ok report))
    (hnone : report.failedOperations = 0) :
    ∃ u q, Relation.ReflTransGen R w u ∧ (a.attempt.run u).2 = .ok () ∧
      ∃ u', Relation.ReflTransGen R (a.attempt.run u).1 u' ∧
        Beside R u' (carryOut t q as) w' (notices, .ok report) := by
  rw [carryOut_cons] at h
  obtain ⟨u', v, hattempt, hrest⟩ := h.of_bind
  obtain ⟨u, hbefore, hv, hafter⟩ := beside_attempt hattempt
  cases v with
  | ok => exact ⟨u, _, hbefore, hv.symm, u', hafter, hrest⟩
  | error e =>
    simp only [proceed] at hrest
    split at hrest
    · have hle := failedOperations_le hrest
      simp only at hle
      omega
    · obtain ⟨heq, -⟩ := Beside.of_done hrest
      simp at heq

theorem Overlaid.carriedOut {τ : Contents} {issued : String → Nat} (h : Overlaid w₀ τ issued w)
    (has : ∀ a ∈ as, a.Planned)
    (hrun : Beside (Answered fun _ c => c.Loads) w (carryOut t p as) w' (notices, .ok report))
    (hnone : report.failedOperations = 0) :
    failures τ (resolved w₀.supplies issued as) = 0 ∧
      ∃ issued', Overlaid w₀ (effects τ (resolved w₀.supplies issued as)) issued' w' := by
  induction as generalizing p τ issued w with
  | nil =>
    obtain ⟨-, hsteps⟩ := Beside.of_done hrun
    exact ⟨rfl, issued, h.environment hsteps⟩
  | cons a as ih =>
    obtain ⟨u, q, hbefore, hok, u', hafter, hrest⟩ := of_beside_carryOut_cons hrun hnone
    obtain ⟨hverdict, hnext⟩ := (h.environment hbefore).attempted (has a List.mem_cons_self) hok
    obtain ⟨hzero, hoverlaid⟩ := ih (hnext.environment hafter)
      (fun b hb => has b (List.mem_cons_of_mem _ hb)) hrest
    exact ⟨by simp [resolved, failures, hverdict, hzero], hoverlaid⟩

end Beside

/-- A batch that comes to an end without failures while a load runs would have done so alone. Under
every identity the stores hold what the batch alone leaves, unless the last call about that identity
was a write-back of the load: then they hold the document that was written back. -/
theorem batch_kept_unless_written_back (r : Replica Object) (batch : List (Intent Object))
    (l : Load.Loader Object) (hl : l.type.KeepsIdentities) (schedule : Load.Schedule)
    {w w' : World} (hw : w.InMemory)
    {loaded : Option Load.Report × Except Failure (Load.Full Object)} {notices : List Notice}
    {report : Report}
    (hrun : Interleaved w (l.loadAll schedule) (r.synchronize batch) w' loaded
      (notices, .ok report))
    (hnone : report.failedOperations = 0) :
    (∃ notices' report', ((r.synchronize batch).run w).2 = (notices', .ok report') ∧
      report'.failedOperations = 0) ∧
    ∀ store, ∃ calls, w'.journal store = w.journal store ++ calls ∧
      ∀ k, w'.contents.at? (store, k) =
        (leftByLoad? k calls).or (((r.synchronize batch).run w).1.contents.at? (store, k)) := by
  have hbeside := hrun.beside (l.calls_loadAll hl schedule)
  have hplan : r.synchronize batch = carryOut r.triage {} (planned r.bindings batch) := by
    rcases synchronize_cases r.bindings r.triage batch with h | ⟨f, h⟩
    · exact h
    · unfold Replica.synchronize at hbeside
      rw [h] at hbeside
      obtain ⟨heq, -⟩ := hbeside.of_done
      cases heq
  rw [hplan] at hbeside ⊢
  obtain ⟨hzero, issued', hend⟩ :=
    (overlaid_refl hw).carriedOut (fun a ha => planned_of_mem a ha) hbeside hnone
  obtain ⟨notices', report', halone⟩ :=
    ok_of_failures_eq_zero (t := r.triage) (p := {}) hw (fun a ha => planned_of_mem a ha) hzero
  obtain ⟨-, hcontents, hfailed⟩ := carriedOut_of_ok hw (fun a ha => planned_of_mem a ha) halone
  refine ⟨⟨notices', report', halone, by simpa [hzero] using hfailed⟩, fun store => ?_⟩
  rw [hcontents]
  exact hend.stored store

/-! A load that gives a grade to an apple, and a batch that tells where the apple comes from. -/

def fruitLoader : Load.Loader Value := ⟨fruits, {}, none⟩

def appleWorld : World :=
  ⟨TextMap.empty.insert "fruits"
    { collection := (Collection.empty "fruits").put "\"apple\"" (.ofIdentity (.text "apple"))
      supply := fun _ => "" }⟩

def originUpdate : Intent Value where
  kind := .update
  typeName := "Fruit"
  object := .ofFields [("name", .text "apple"), ("origin", .text "Spain")]

theorem inMemory_appleWorld : appleWorld.InMemory :=
  World.InMemory.setStore (w := ⟨.empty⟩) (fun _ => ⟨rfl, rfl, rfl⟩) "fruits" ⟨rfl, rfl, rfl⟩

def gradingRun (turns : List Bool) : Option (World × (Option Load.Report ×
    Except Failure (Load.Full Value)) × List Notice × Except Failure Report) :=
  interleave turns appleWorld (fruitLoader.loadAll .inOrder)
    (fruitReplica.synchronize [originUpdate])

def originIn (w : World) : Option Value :=
  (w.contents.at? ("fruits", "\"apple\"")).bind fun d => d.get? "origin"

/-- The update comes between the reading and the write-back of the load, and is lost. -/
theorem write_back_overwrites_update :
    ∃ w' loaded notices report,
      Interleaved appleWorld (fruitLoader.loadAll .inOrder)
        (fruitReplica.synchronize [originUpdate]) w' loaded (notices, .ok report) ∧
      report.failedOperations = 0 ∧
      originIn ((fruitReplica.synchronize [originUpdate]).run appleWorld).1 =
        some (.text "Spain") ∧
      originIn w' = none := by
  have hrun : (gradingRun [true, false, true]).any (fun (w', _, _, r) =>
      (originIn w').isNone && match r with
        | .ok report => report.failedOperations == 0
        | .error _ => false) = true := by decide +kernel
  obtain ⟨⟨w', loaded, notices, r⟩, hinterleave, hend⟩ := (Option.any_eq_true _ _).mp hrun
  cases r with
  | error e => simp at hend
  | ok report =>
    simp only [Bool.and_eq_true, Option.isNone_iff_eq_none, beq_iff_eq] at hend
    exact ⟨w', loaded, notices, report, interleaved_of_interleave hinterleave, hend.2, rfl, hend.1⟩

/-- The update comes after the write-back, and is kept. -/
theorem update_after_write_back_kept :
    ∃ w' loaded notices report,
      Interleaved appleWorld (fruitLoader.loadAll .inOrder)
        (fruitReplica.synchronize [originUpdate]) w' loaded (notices, .ok report) ∧
      report.failedOperations = 0 ∧ originIn w' = some (.text "Spain") := by
  have hrun : (gradingRun [true, true, false]).any (fun (w', _, _, r) =>
      (leftByLoad? "\"apple\"" (w'.journal "fruits")).isNone && match r with
        | .ok report => report.failedOperations == 0
        | .error _ => false) = true := by decide +kernel
  obtain ⟨⟨w', loaded, notices, r⟩, hinterleave, hend⟩ := (Option.any_eq_true _ _).mp hrun
  cases r with
  | error e => simp at hend
  | ok report =>
    simp only [Bool.and_eq_true, Option.isNone_iff_eq_none, beq_iff_eq] at hend
    have hinterleaved := interleaved_of_interleave hinterleave
    obtain ⟨-, hstores⟩ := batch_kept_unless_written_back fruitReplica [originUpdate]
      fruitLoader keepsIdentities_fruitType .inOrder inMemory_appleWorld hinterleaved hend.2
    obtain ⟨calls, hjournal, hstored⟩ := hstores "fruits"
    have hcalls : w'.journal "fruits" = calls := hjournal
    refine ⟨w', loaded, notices, report, hinterleaved, hend.2, ?_⟩
    rw [originIn, hstored, ← hcalls, hend.1]
    rfl

end Sync

end StoredObjects
