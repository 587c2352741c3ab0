import StoredObjects.Proofs.Store.Contents
import StoredObjects.Sync.Batch

/-! # What the actions of a batch do

The contents of stores in memory evolve by one pure step for every action. An action writes to the
places that it names and to no others. A whole batch that comes to a report is the fold of its
actions, and the report counts the actions that failed. Documents without an identity get one from
their store: the actions are resolved first, and from then on every inserted document has a key.
-/

namespace StoredObjects

namespace Sync

abbrev Place := String × String

namespace Action

def Planned : Action → Prop
  | remove _ _ identity => identity.isNull = false
  | _ => True

def Identified : Action → Prop
  | insertAll g => ∀ d ∈ g.documents, ∃ k, d.key? = some k
  | remove _ _ identity => identity.isNull = false
  | _ => True

/-- Nothing but a taken identity can make the action fail. -/
def Keyed : Action → Prop
  | refuse .. => False
  | insertAll g => ∀ d ∈ g.documents, ∃ k, d.key? = some k
  | update _ _ d => ∃ k, d.key? = some k
  | remove _ _ identity => identity.isNull = false
  | skipReloaded | skipKept => True

/-- Gives identities to the documents that lack them, as their store will. -/
def resolve (supplies : String → Nat → String) (issued : String → Nat) : Action → Action
  | insertAll g => insertAll { g with
      documents := Store.identified (fun i => supplies g.store (issued g.store + i)) g.documents }
  | a => a

def issue (issued : String → Nat) : Action → String → Nat
  | insertAll g => Function.update issued g.store (issued g.store + g.documents.length)
  | _ => issued

def Names (place : Place) : Action → Prop
  | skipReloaded | skipKept | refuse .. => False
  | insertAll g => place.1 = g.store ∧ ∃ d ∈ g.documents, d.key? = some place.2
  | update store _ d => place.1 = store ∧ d.key? = some place.2
  | remove store _ identity => place.1 = store ∧ Document.keyOf identity = place.2

def leaves (place : Place) : Action → Option Document
  | skipReloaded | skipKept | refuse .. | remove .. => none
  | insertAll g => g.documents.find? fun d => d.key? = some place.2
  | update _ _ d => some d

def Overwrites : Action → Prop
  | update .. | remove .. => True
  | _ => False

def effect (σ : Contents) : Action → Contents
  | skipReloaded | skipKept | refuse .. => σ
  | insertAll g => Function.update σ g.store ((σ g.store).insertAll g.documents).1
  | update store _ d =>
    match (σ store).update d with
    | .ok c => Function.update σ store c
    | .error _ => σ
  | remove store _ identity => Function.update σ store ((σ store).delete (.ofIdentity identity))

/-- Whether an action succeeds. -/
def verdict (σ : Contents) : Action → Except Failure Unit
  | skipReloaded | skipKept | remove .. => .ok ()
  | refuse _ _ _ e => .error e
  | insertAll g => ((σ g.store).insertAll g.documents).2
  | update store _ d => ((σ store).update d).map fun _ => ()

variable {a : Action} {σ : Contents} {place : Place}

theorem identified_resolve (ha : a.Planned) (supplies : String → Nat → String)
    (issued : String → Nat) : (a.resolve supplies issued).Identified := by
  cases a with
  | insertAll g => exact Store.keyed_identified _ _
  | remove => exact ha
  | _ => trivial

theorem planned_of_keyed (ha : a.Keyed) : a.Planned := by
  cases a with
  | remove => exact ha
  | _ => trivial

theorem identified_of_keyed (ha : a.Keyed) : a.Identified := by
  cases a with
  | insertAll g => exact ha
  | remove => exact ha
  | _ => trivial

theorem resolve_of_keyed (ha : a.Keyed) (supplies : String → Nat → String)
    (issued : String → Nat) : a.resolve supplies issued = a := by
  cases a with
  | insertAll g => simp [resolve, Store.identified_of_keyed ha]
  | _ => rfl

theorem effect_update {store collection : String} {d : Document} {k : String}
    (hk : d.key? = some k) :
    effect σ (.update store collection d) = Function.update σ store ((σ store).put k d) := by
  simp [effect, Collection.update_of_key? hk]

theorem effect_update_of_no_key? {store collection : String} {d : Document}
    (hd : d.key? = none) : effect σ (.update store collection d) = σ := by
  simp [effect, Collection.update_of_no_key? hd]

theorem effect_remove {store collection : String} {v : Value} (hv : v.isNull = false) :
    effect σ (.remove store collection v) =
      Function.update σ store ((σ store).drop (Document.keyOf v)) := by
  simp [effect, Collection.delete_ofIdentity hv]

theorem at?_effect_of_not_names (ha : a.Identified) (hn : ¬ a.Names place) :
    (a.effect σ).at? place = σ.at? place := by
  cases a with
  | skipReloaded => rfl
  | skipKept => rfl
  | refuse => rfl
  | insertAll g =>
    by_cases hstore : place.1 = g.store
    · have hkeys : ∀ d ∈ g.documents, d.key? ≠ some place.2 :=
        fun d hd hk => hn ⟨hstore, d, hd, hk⟩
      simp [effect, Contents.at?, hstore, Collection.get?_insertAll_of_not_mem ha hkeys]
    · exact Contents.at?_update_of_ne σ _ hstore
  | update store collection d =>
    cases hk : d.key? with
    | none => rw [effect_update_of_no_key? hk]
    | some k =>
      rw [effect_update hk]
      by_cases hstore : place.1 = store
      · have hne : place.2 ≠ k := fun h => hn ⟨hstore, h ▸ hk⟩
        simp [Contents.at?, hstore, TextMap.get?_insert_of_ne _ _ hne]
      · exact Contents.at?_update_of_ne σ _ hstore
  | remove store collection v =>
    rw [effect_remove ha]
    by_cases hstore : place.1 = store
    · have hne : place.2 ≠ Document.keyOf v := fun h => hn ⟨hstore, h.symm⟩
      simp [Contents.at?, hstore, TextMap.get?_erase_of_ne _ hne]
    · exact Contents.at?_update_of_ne σ _ hstore

theorem at?_effect_of_overwrites (ha : a.Identified) (ho : a.Overwrites) (hn : a.Names place) :
    (a.effect σ).at? place = a.leaves place := by
  obtain ⟨store, k⟩ := place
  cases a with
  | update store' collection d =>
    obtain ⟨rfl, hk⟩ := hn
    simp [effect_update hk, leaves]
  | remove store' collection v =>
    obtain ⟨rfl, rfl⟩ := hn
    simp [effect_remove ha, leaves]
  | _ => exact ho.elim

theorem added_of_verdict {g : Group} (ha : (insertAll g).Identified)
    (hok : (insertAll g).verdict σ = .ok ()) :
    Collection.Added (σ g.store) (effect σ (.insertAll g) g.store) g.documents := by
  simpa [effect] using Collection.added_of_insertAll_ok ha hok

theorem at?_eq_none_of_verdict {g : Group} (ha : (insertAll g).Identified)
    (hok : (insertAll g).verdict σ = .ok ()) (hn : (insertAll g).Names place) :
    σ.at? place = none := by
  obtain ⟨hstore, d, hd, hk⟩ := hn
  rw [Contents.at?, hstore]
  exact (added_of_verdict ha hok).free d hd _ hk

theorem at?_effect_of_verdict (ha : a.Identified) (hok : a.verdict σ = .ok ())
    (hn : a.Names place) : (a.effect σ).at? place = a.leaves place := by
  cases a with
  | insertAll g =>
    have hadd := added_of_verdict ha hok
    obtain ⟨hstore, d, hd, hk⟩ := hn
    obtain ⟨e, he⟩ : ∃ e, g.documents.find? (fun d => d.key? = some place.2) = some e :=
      Option.isSome_iff_exists.mp (List.find?_isSome.mpr ⟨d, hd, by simpa using hk⟩)
    have hek : e.key? = some place.2 := by simpa using List.find?_some he
    rw [Contents.at?, hstore, leaves, he]
    exact hadd.stored e (List.mem_of_find?_eq_some he) _ hek
  | update => exact at?_effect_of_overwrites ha trivial hn
  | remove => exact at?_effect_of_overwrites ha trivial hn
  | _ => exact hn.elim

/-- Only places that are taken can make an action fail that succeeds elsewhere. -/
theorem verdict_of_free {τ : Contents} (ha : a.Identified) (hok : a.verdict σ = .ok ())
    (hfree : ∀ place, σ.at? place = none → τ.at? place = none) : a.verdict τ = .ok () := by
  cases a with
  | insertAll g =>
    have hadd := added_of_verdict ha hok
    refine Collection.insertAll_ok_of_free hadd.distinct fun d hd k hk => ?_
    exact hfree (g.store, k) (hadd.free d hd k hk)
  | update store collection d =>
    cases hk : d.key? with
    | none => simp [verdict, Collection.update_of_no_key? hk, Except.map] at hok
    | some k => simp [verdict, Collection.update_of_key? hk, Except.map]
  | refuse => cases hok
  | _ => rfl

/-! ## Actions as programs -/

variable {w : World}

theorem attempt_shape (a : Action) :
    (∃ r, a.attempt = .done r) ∨
      ∃ store, ∃ c : Call, ∃ k : Except Failure c.Reply → Except Failure Unit,
        a.attempt = .call store c (fun r => .done (k r)) ∧ ∀ e, k (.error e) = .error e := by
  cases a with
  | insertAll g => exact Or.inr ⟨g.store, .insertAll g.documents, id, rfl, fun _ => rfl⟩
  | update store collection d => exact Or.inr ⟨store, .update d, id, rfl, fun _ => rfl⟩
  | remove store collection v =>
    exact Or.inr ⟨store, .delete (.ofIdentity v), id, rfl, fun _ => rfl⟩
  | _ => exact Or.inl ⟨_, rfl⟩

structure Attempted (a : Action) (w : World) : Prop where
  inMemory : (a.attempt.run w).1.InMemory
  supplies : (a.attempt.run w).1.supplies = w.supplies
  issued : (a.attempt.run w).1.issued = a.issue w.issued
  contents : (a.attempt.run w).1.contents = (a.resolve w.supplies w.issued).effect w.contents
  verdict : (a.attempt.run w).2 = (a.resolve w.supplies w.issued).verdict w.contents

theorem attempted (hw : w.InMemory) (ha : a.Planned) : a.Attempted w := by
  cases a with
  | skipReloaded => exact ⟨hw, rfl, rfl, rfl, rfl⟩
  | skipKept => exact ⟨hw, rfl, rfl, rfl, rfl⟩
  | refuse => exact ⟨hw, rfl, rfl, rfl, rfl⟩
  | insertAll g =>
    have h := Store.answers_insertAll (hw g.store) g.documents
    exact ⟨hw.answer g.store (.insertAll g.documents),
      World.supplies_answer hw g.store (.insertAll g.documents),
      World.issued_answer hw g.store (.insertAll g.documents),
      World.contents_answer h, World.reply_answer h⟩
  | update store collection d =>
    have hmem := hw.answer store (.update d)
    have hsupplies := World.supplies_answer hw store (.update d)
    have hissued := (World.issued_answer hw store (.update d)).trans
      (Function.update_eq_self store w.issued)
    cases hk : d.key? with
    | none =>
      have h := Store.answers_update_of_no_key? (hw store) hk
      refine ⟨hmem, hsupplies, hissued, (World.contents_answer h).trans ?_,
        (World.reply_answer h).trans ?_⟩
      · simp [resolve, effect_update_of_no_key? hk, World.contents]
      · simp [resolve, verdict, Collection.update_of_no_key? hk, Except.map, World.contents]
    | some k =>
      have h := Store.answers_update (hw store) hk
      refine ⟨hmem, hsupplies, hissued, (World.contents_answer h).trans (effect_update hk).symm,
        (World.reply_answer h).trans ?_⟩
      simp [resolve, verdict, Collection.update_of_key? hk, Except.map]
  | remove store collection v =>
    have h := Store.answers_delete (hw store) ha
    exact ⟨hw.answer store (.delete (.ofIdentity v)),
      World.supplies_answer hw store (.delete (.ofIdentity v)),
      (World.issued_answer hw store (.delete (.ofIdentity v))).trans
        (Function.update_eq_self store w.issued),
      (World.contents_answer h).trans (effect_remove ha).symm, World.reply_answer h⟩

/-- The failing call is either that of the action, or comes later. -/
theorem runFailing_attempt_bind {β : Type} (a : Action) (f : Except Failure Unit → Program β)
    (n : Nat) (e : Failure) (w : World) :
    (∃ m, (a.attempt >>= f).runFailing n e w =
        (f (a.attempt.run w).2).runFailing m e (a.attempt.run w).1) ∨
      ∃ store c, (a.attempt >>= f).runFailing n e w =
        (f (.error e)).run (w.noteFailed store c) := by
  rcases a.attempt_shape with ⟨r, hr⟩ | ⟨store, c, k, hk, hkerr⟩
  · exact Or.inl ⟨n, by rw [hr]; rfl⟩
  · rw [hk]
    cases n with
    | zero =>
      refine Or.inr ⟨store, c, ?_⟩
      rw [Program.bind_call, Program.runFailing_call_zero, hkerr]
      rfl
    | succ n => exact Or.inl ⟨n, rfl⟩

theorem verdict_of_keyed (ha : a.Keyed) (σ : Contents) :
    a.verdict σ = .ok () ∨ ∃ name key, a.verdict σ = .error (.duplicateDocumentKey name key) := by
  cases a with
  | refuse => exact ha.elim
  | insertAll g => exact Collection.insertAll_result ha
  | update store collection d =>
    obtain ⟨k, hk⟩ := ha
    exact Or.inl (by simp [verdict, Collection.update_of_key? hk, Except.map])
  | _ => exact Or.inl rfl

end Action

/-! ## Whole batches -/

/-- The contents after all actions, those that fail included. -/
def effects (σ : Contents) (as : List Action) : Contents := as.foldl Action.effect σ

def resolved (supplies : String → Nat → String) (issued : String → Nat) :
    List Action → List Action
  | [] => []
  | a :: rest => a.resolve supplies issued :: resolved supplies (a.issue issued) rest

def failures (σ : Contents) : List Action → Nat
  | [] => 0
  | a :: rest =>
    (match a.verdict σ with
      | .ok () => 0
      | .error _ => 1) + failures (a.effect σ) rest

section Batch

variable {σ : Contents} {as : List Action} {place : Place}

theorem resolved_of_keyed (supplies : String → Nat → String) (issued : String → Nat)
    (has : ∀ a ∈ as, a.Keyed) : resolved supplies issued as = as := by
  induction as generalizing issued with
  | nil => rfl
  | cons a as ih =>
    rw [resolved, Action.resolve_of_keyed (has a List.mem_cons_self),
      ih _ fun b hb => has b (List.mem_cons_of_mem _ hb)]

@[simp] theorem effects_nil (σ : Contents) : effects σ [] = σ := rfl

@[simp] theorem effects_cons (σ : Contents) (a : Action) (as : List Action) :
    effects σ (a :: as) = effects (a.effect σ) as := rfl

theorem effects_append (σ : Contents) (as bs : List Action) :
    effects σ (as ++ bs) = effects (effects σ as) bs := List.foldl_append

theorem failures_append (σ : Contents) (as bs : List Action) :
    failures σ (as ++ bs) = failures σ as + failures (effects σ as) bs := by
  induction as generalizing σ with
  | nil => simp [failures]
  | cons a as ih => simp [failures, ih, Nat.add_assoc]

theorem verdict_of_failures_eq_zero {a : Action} (h : failures σ (a :: as) = 0) :
    a.verdict σ = .ok () ∧ failures (a.effect σ) as = 0 := by
  unfold failures at h
  cases hv : a.verdict σ with
  | ok u =>
    rw [hv] at h
    exact ⟨rfl, by simpa using h⟩
  | error e =>
    rw [hv] at h
    simp at h

theorem verdict_of_split {before after : List Action} {a : Action}
    (h : failures σ (before ++ a :: after) = 0) : a.verdict (effects σ before) = .ok () := by
  rw [failures_append] at h
  exact (verdict_of_failures_eq_zero (Nat.eq_zero_of_add_eq_zero_left h)).1

theorem at?_effects_of_not_named (has : ∀ a ∈ as, a.Identified)
    (hn : ∀ a ∈ as, ¬ a.Names place) : (effects σ as).at? place = σ.at? place := by
  induction as generalizing σ with
  | nil => rfl
  | cons a as ih =>
    rw [effects_cons, ih (fun b hb => has b (List.mem_cons_of_mem _ hb))
      (fun b hb => hn b (List.mem_cons_of_mem _ hb))]
    exact Action.at?_effect_of_not_names (has a List.mem_cons_self) (hn a List.mem_cons_self)

theorem last_naming (as : List Action) (place : Place) :
    (∀ a ∈ as, ¬ a.Names place) ∨ ∃ before a after,
      as = before ++ a :: after ∧ a.Names place ∧ ∀ b ∈ after, ¬ b.Names place := by
  induction as with
  | nil => exact Or.inl (by simp)
  | cons a as ih =>
    rcases ih with hnone | ⟨before, b, after, rfl, hb, hafter⟩
    · by_cases ha : a.Names place
      · exact Or.inr ⟨[], a, as, rfl, ha, hnone⟩
      · refine Or.inl fun b hb => ?_
        rcases List.mem_cons.mp hb with rfl | hb
        · exact ha
        · exact hnone b hb
    · exact Or.inr ⟨a :: before, b, after, rfl, hb, hafter⟩

/-- When nothing fails, a place holds what the last action that names it leaves. -/
theorem at?_effects_of_last {before after : List Action} {a : Action}
    (has : ∀ b ∈ before ++ a :: after, b.Identified)
    (hok : failures σ (before ++ a :: after) = 0) (ha : a.Names place)
    (hafter : ∀ b ∈ after, ¬ b.Names place) :
    (effects σ (before ++ a :: after)).at? place = a.leaves place := by
  rw [effects_append, effects_cons, at?_effects_of_not_named
    (fun b hb => has b (by simp [hb])) hafter]
  exact Action.at?_effect_of_verdict (has a (by simp)) (verdict_of_split hok) ha

/-- An update or a removal that is the last to name a place decides what it holds, whatever failed.
-/
theorem at?_effects_of_last_overwrites {before after : List Action} {a : Action}
    (has : ∀ b ∈ before ++ a :: after, b.Identified) (ho : a.Overwrites) (ha : a.Names place)
    (hafter : ∀ b ∈ after, ¬ b.Names place) :
    (effects σ (before ++ a :: after)).at? place = a.leaves place := by
  rw [effects_append, effects_cons, at?_effects_of_not_named
    (fun b hb => has b (by simp [hb])) hafter]
  exact Action.at?_effect_of_overwrites (has a (by simp)) ho ha

end Batch

/-! ## Batches as programs -/

theorem Triage.decide_duplicate (t : Triage) (kind : Kind) (collection : String)
    (documents : List Document) (name key : String) :
    (t.decide kind collection documents (.duplicateDocumentKey name key)).2 = .ok () := by
  simp only [Triage.decide]
  cases t.policy <;> rfl

section CarryOut

variable {t : Triage} {p : Progress} {a : Action} {as : List Action} {w : World}

def proceed (t : Triage) (p : Progress) (a : Action) (rest : List Action) :
    Except Failure Unit → Program (List Notice × Except Failure Report)
  | .ok () => carryOut t { p with report := a.count p.report } rest
  | .error e =>
    match (t.decide a.kind a.collection a.documents e).2 with
    | .ok () => carryOut t ⟨{ p.report with failedOperations := p.report.failedOperations + 1 },
        p.notices ++ [(t.decide a.kind a.collection a.documents e).1]⟩ rest
    | .error f => .done (p.notices ++ [(t.decide a.kind a.collection a.documents e).1], .error f)

theorem carryOut_cons (t : Triage) (p : Progress) (a : Action) (rest : List Action) :
    carryOut t p (a :: rest) = a.attempt >>= proceed t p a rest := by
  rw [carryOut]
  rfl

theorem proceed_duplicate (name key : String) (rest : List Action) :
    proceed t p a rest (.error (.duplicateDocumentKey name key)) =
      carryOut t ⟨{ p.report with failedOperations := p.report.failedOperations + 1 },
        p.notices ++ [(t.decide a.kind a.collection a.documents
          (.duplicateDocumentKey name key)).1]⟩ rest := by
  simp only [proceed, Triage.decide_duplicate]

@[simp] theorem failedOperations_count (r : Report) (a : Action) :
    (a.count r).failedOperations = r.failedOperations := by
  cases a <;> rfl

theorem run_carryOut_cons (t : Triage) (p : Progress) (a : Action) (as : List Action) (w : World) :
    (carryOut t p (a :: as)).run w =
      (proceed t p a as (a.attempt.run w).2).run (a.attempt.run w).1 := by
  rw [carryOut_cons]
  exact Program.run_bind w a.attempt _

theorem run_carryOut_append (t : Triage) (p : Progress) (as bs : List Action) (w : World) :
    (carryOut t p (as ++ bs)).run w =
      match ((carryOut t p as).run w).2 with
      | (notices, .ok report) =>
        (carryOut t ⟨report, notices⟩ bs).run ((carryOut t p as).run w).1
      | (notices, .error e) => (((carryOut t p as).run w).1, (notices, .error e)) := by
  induction as generalizing p w with
  | nil => rfl
  | cons a as ih =>
    rw [List.cons_append, run_carryOut_cons, run_carryOut_cons]
    cases (a.attempt.run w).2 with
    | ok u => exact ih _ _
    | error e =>
      simp only [proceed]
      cases (t.decide a.kind a.collection a.documents e).2 with
      | ok u => exact ih _ _
      | error f => rfl

theorem run_carryOut_split {as bs : List Action} {notices : List Notice} {report : Report}
    (hok : ((carryOut t p (as ++ bs)).run w).2 = (notices, .ok report)) :
    ∃ q : Progress, ((carryOut t p as).run w).2 = (q.notices, .ok q.report) ∧
      (carryOut t p (as ++ bs)).run w = (carryOut t q bs).run ((carryOut t p as).run w).1 := by
  rw [run_carryOut_append] at hok ⊢
  obtain ⟨⟨notices', outcome⟩, hcut⟩ : ∃ r, ((carryOut t p as).run w).2 = r := ⟨_, rfl⟩
  rw [hcut] at hok ⊢
  cases outcome with
  | ok report' => exact ⟨⟨report', notices'⟩, rfl, rfl⟩
  | error e => cases (Prod.mk.inj hok).2

/-- What a batch did that was carried out to its end. -/
structure CarriedOut (t : Triage) (p : Progress) (as : List Action) (w : World) (report : Report) :
    Prop where
  inMemory : ((carryOut t p as).run w).1.InMemory
  contents : ((carryOut t p as).run w).1.contents =
    effects w.contents (resolved w.supplies w.issued as)
  failed : report.failedOperations =
    p.report.failedOperations + failures w.contents (resolved w.supplies w.issued as)

theorem carriedOut_of_ok {notices : List Notice} {report : Report} (hw : w.InMemory)
    (has : ∀ a ∈ as, a.Planned) (hok : ((carryOut t p as).run w).2 = (notices, .ok report)) :
    CarriedOut t p as w report := by
  induction as generalizing p w with
  | nil =>
    obtain rfl : p.report = report := by
      simp only [carryOut, Program.run_done, Prod.mk.injEq, Except.ok.injEq] at hok
      exact hok.2
    exact ⟨hw, rfl, rfl⟩
  | cons a as ih =>
    have hrest : ∀ b ∈ as, b.Planned := fun b hb => has b (List.mem_cons_of_mem _ hb)
    obtain ⟨hmem, hsupplies, hissued, hcontents, hverdict⟩ :=
      Action.attempted hw (has a List.mem_cons_self)
    have hrun := run_carryOut_cons t p a as w
    rw [hverdict] at hrun
    -- the rest of the batch starts from the contents that the action leaves
    have hgo : ∀ q, (carryOut t p (a :: as)).run w = (carryOut t q as).run (a.attempt.run w).1 →
        (q.report.failedOperations + failures (a.attempt.run w).1.contents (resolved w.supplies
          (a.issue w.issued) as) = p.report.failedOperations +
            failures w.contents (resolved w.supplies w.issued (a :: as))) →
        CarriedOut t p (a :: as) w report := by
      intro q hq hcount
      rw [hq] at hok
      obtain ⟨h₁, h₂, h₃⟩ := ih hmem hrest hok
      rw [hsupplies, hissued] at h₂ h₃
      exact ⟨by rw [hq]; exact h₁, by rw [hq, h₂, hcontents]; rfl, h₃.trans hcount⟩
    cases hv : (a.resolve w.supplies w.issued).verdict w.contents with
    | ok u =>
      rw [hv] at hrun
      refine hgo _ hrun ?_
      simp [hcontents, resolved, failures, hv]
    | error e =>
      rw [hv] at hrun
      simp only [proceed] at hrun
      cases hd : (t.decide a.kind a.collection a.documents e).2 with
      | ok u =>
        rw [hd] at hrun
        refine hgo _ hrun ?_
        simp [hcontents, resolved, failures, hv]
        omega
      | error f =>
        rw [hd] at hrun
        rw [hrun] at hok
        simp at hok

theorem ok_of_keyed (hw : w.InMemory) (has : ∀ a ∈ as, a.Keyed) :
    ∃ notices report, ((carryOut t p as).run w).2 = (notices, .ok report) := by
  induction as generalizing p w with
  | nil => exact ⟨_, _, rfl⟩
  | cons a as ih =>
    have ha := has a List.mem_cons_self
    obtain ⟨hmem, -, -, -, hverdict⟩ := Action.attempted hw (Action.planned_of_keyed ha)
    rw [run_carryOut_cons, hverdict, Action.resolve_of_keyed ha]
    rcases Action.verdict_of_keyed ha w.contents with hv | ⟨name, key, hv⟩
    · rw [hv]
      exact ih hmem fun b hb => has b (List.mem_cons_of_mem _ hb)
    · rw [hv, proceed_duplicate]
      exact ih hmem fun b hb => has b (List.mem_cons_of_mem _ hb)

theorem ok_of_failures_eq_zero (hw : w.InMemory) (has : ∀ a ∈ as, a.Planned)
    (hnone : failures w.contents (resolved w.supplies w.issued as) = 0) :
    ∃ notices report, ((carryOut t p as).run w).2 = (notices, .ok report) := by
  induction as generalizing p w with
  | nil => exact ⟨_, _, rfl⟩
  | cons a as ih =>
    obtain ⟨hmem, hsupplies, hissued, hcontents, hverdict⟩ :=
      Action.attempted hw (has a List.mem_cons_self)
    obtain ⟨hok, hrest⟩ := verdict_of_failures_eq_zero hnone
    rw [run_carryOut_cons, hverdict, hok]
    refine ih hmem (fun b hb => has b (List.mem_cons_of_mem _ hb)) ?_
    rw [hsupplies, hissued, hcontents]
    exact hrest

theorem carriedOut_of_keyed (hw : w.InMemory) (has : ∀ a ∈ as, a.Keyed) :
    ∃ notices report, ((carryOut t p as).run w).2 = (notices, .ok report) ∧
      ((carryOut t p as).run w).1.contents = effects w.contents as ∧
      report.failedOperations = p.report.failedOperations + failures w.contents as := by
  obtain ⟨notices, report, hok⟩ := ok_of_keyed (t := t) (p := p) hw has
  obtain ⟨-, hcontents, hfailed⟩ :=
    carriedOut_of_ok hw (fun a ha => Action.planned_of_keyed (has a ha)) hok
  rw [resolved_of_keyed _ _ has] at hcontents hfailed
  exact ⟨notices, report, hok, hcontents, hfailed⟩

/-- A batch that only taken identities could disturb, and that reports no failure. -/
theorem effects_of_no_failure {notices : List Notice} {report : Report} (hw : w.InMemory)
    (has : ∀ a ∈ as, a.Keyed) (hok : ((carryOut t {} as).run w).2 = (notices, .ok report))
    (hnone : report.failedOperations = 0) :
    ((carryOut t {} as).run w).1.contents = effects w.contents as ∧ failures w.contents as = 0 := by
  obtain ⟨-, hcontents, hfailed⟩ :=
    carriedOut_of_ok hw (fun a ha => Action.planned_of_keyed (has a ha)) hok
  rw [resolved_of_keyed _ _ has] at hcontents hfailed
  constructor
  · exact hcontents
  · simpa [hnone] using hfailed.symm

theorem stopped {n : Nat} {e f : Failure} (hw : w.InMemory) (has : ∀ a ∈ as, a.Keyed)
    (hstop : ((carryOut t p as).runFailing n e w).2.2 = .error f) :
    ((carryOut t p as).runFailing n e w).1.InMemory ∧ ∃ made rest, as = made ++ rest ∧
      ((carryOut t p as).runFailing n e w).1.contents = effects w.contents made := by
  induction as generalizing p w n with
  | nil => cases hstop
  | cons a as ih =>
    have ha := has a List.mem_cons_self
    have hrest : ∀ b ∈ as, b.Keyed := fun b hb => has b (List.mem_cons_of_mem _ hb)
    have hnostop : ∀ {p w g}, w.InMemory → ((carryOut t p as).run w).2.2 ≠ .error g := by
      intro p w g hw' heq
      obtain ⟨notices, report, hr⟩ := ok_of_keyed (t := t) (p := p) hw' hrest
      rw [hr] at heq
      cases heq
    rw [carryOut_cons] at hstop ⊢
    rcases a.runFailing_attempt_bind (proceed t p a as) n e w with ⟨m, hm⟩ | ⟨store, c, hc⟩
    · -- the action itself went well: the failing call is one of the later ones
      rw [hm] at hstop ⊢
      obtain ⟨hmem, -, -, hcontents, hverdict⟩ := Action.attempted hw (Action.planned_of_keyed ha)
      rw [Action.resolve_of_keyed ha] at hcontents hverdict
      rw [hverdict] at hstop ⊢
      have hgo : ∀ q, ((carryOut t q as).runFailing m e (a.attempt.run w).1).2.2 = .error f →
          ((carryOut t q as).runFailing m e (a.attempt.run w).1).1.InMemory ∧
            ∃ made rest, a :: as = made ++ rest ∧
              ((carryOut t q as).runFailing m e (a.attempt.run w).1).1.contents =
                effects w.contents made := by
        intro q hq
        obtain ⟨h₁, made, rest, rfl, h₂⟩ := ih hmem hrest hq
        exact ⟨h₁, a :: made, rest, rfl, by rw [h₂, effects_cons, hcontents]⟩
      rcases Action.verdict_of_keyed ha w.contents with hv | ⟨name, key, hv⟩
      · rw [hv] at hstop ⊢
        exact hgo _ hstop
      · rw [hv, proceed_duplicate] at hstop ⊢
        exact hgo _ hstop
    · -- the call of this action failed: either that stops the batch here, or nothing does
      rw [hc] at hstop ⊢
      simp only [proceed] at hstop ⊢
      cases hd : (t.decide a.kind a.collection a.documents e).2 with
      | ok u =>
        rw [hd] at hstop
        exact absurd hstop (hnostop (hw.noteFailed store c))
      | error g =>
        exact ⟨hw.noteFailed store c, [], a :: as, rfl, World.contents_noteFailed w store c⟩

end CarryOut

end Sync

end StoredObjects
