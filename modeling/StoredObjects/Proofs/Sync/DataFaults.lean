import StoredObjects.Proofs.Pattern.Literal
import StoredObjects.Proofs.Sync.Course

/-! # Faulty data

Where no call fails on its own, an intent can still fail because of its data: the object has no
document, or the document lacks the identity that an update or a removal needs. Such a failure is
absorbed unless its report mentions one of the phrases by which transient failures are recognised,
and the names and values in the report can do that. A taken identity is always absorbed.
-/

namespace StoredObjects

namespace Sync

variable {Object : Type}

/-- The failure that the data of an intent are sure to cause. -/
def fault? : Binding Object × Intent Object → Option Failure
  | (b, i) =>
    if passedOver (b, i) then none
    else
      match b.document i.object with
      | .error e => some e
      | .ok d =>
        if d.identity?.isSome then none
        else match i.kind with
          | .insert => none
          | .update =>
            some (.illegalArgument s!"document without '_id' cannot be written to '{b.collection}'")
          | .remove => some (.illegalArgument s!"cannot remove '{b.type.name}' without identity")

/-! ## Triage by phrases -/

def defaultPhrases : List String := ({} : Settings.Sync).transientPatterns

def LooksTransient : Failure → Prop
  | .connectivity _ | .timeout _ | .transientWrite .. => True
  | .duplicateDocumentKey .. | .conversionFailed _ | .serialization _ | .unknownType _ => False
  | e => ∃ phrase ∈ defaultPhrases, Mentions phrase e.message

section Triage

variable {t : Triage}

theorem patterns_of_ofSettings {s : Settings.Sync} (hs : s.transientPatterns = defaultPhrases)
    (h : Triage.ofSettings s = .ok t) :
    t.patterns = defaultPhrases.map fun phrase => .literal phrase.toList := by
  have hread : defaultPhrases.mapM Triage.readPattern =
      .ok (defaultPhrases.map fun phrase => .literal phrase.toList) := rfl
  unfold Triage.ofSettings at h
  rw [hs, hread] at h
  obtain rfl := Except.ok.inj h
  rfl

theorem isTransient_iff
    (ht : t.patterns = defaultPhrases.map fun phrase => .literal phrase.toList) (e : Failure) :
    t.isTransient e = true ↔ LooksTransient e := by
  have hphrases : (t.patterns.any fun p => p.occursIn e.message) = true ↔
      ∃ phrase ∈ defaultPhrases, Mentions phrase e.message := by
    simp only [ht, List.any_map, List.any_eq_true, Function.comp_apply,
      Pattern.occursIn_literal_iff]
  cases e with
  | unknownDocumentVersion => exact hphrases
  | writeFailed => exact hphrases
  | invalidPatchChain => exact hphrases
  | illegalState => exact hphrases
  | illegalArgument => exact hphrases
  | workerFailed => exact hphrases
  | _ => simp [Triage.isTransient, LooksTransient]

end Triage

/-! ## Flawed actions -/

namespace Action

/-- The failure of an action that is sure to fail, whatever is stored. -/
def flaw? : Action → Option Failure
  | refuse _ _ _ e => some e
  | update _ collection d =>
    if d.identity?.isSome then none
    else some (.illegalArgument s!"document without '_id' cannot be written to '{collection}'")
  | _ => none

def Hosted (σ : Contents) : Action → Prop
  | update store collection _ => (σ store).name = collection
  | _ => True

variable {a : Action} {σ : Contents}

theorem name_effect (σ : Contents) (a : Action) (store : String) :
    (a.effect σ store).name = (σ store).name := by
  have hupdate : ∀ {store' : String} {c : Collection}, c.name = (σ store').name →
      (Function.update σ store' c store).name = (σ store).name := by
    intro store' c hc
    by_cases h : store = store'
    · subst h
      simpa using hc
    · rw [Function.update_of_ne h]
  cases a with
  | insertAll g => exact hupdate (Collection.name_insertAll _ _)
  | update store' collection d =>
    cases hk : d.key? with
    | none => rw [effect_update_of_no_key? hk]
    | some k =>
      rw [effect_update hk]
      exact hupdate rfl
  | remove store' collection v => exact hupdate (Collection.name_delete _ _)
  | _ => rfl

theorem Hosted.effect (h : a.Hosted σ) (b : Action) : a.Hosted (b.effect σ) := by
  cases a with
  | update store collection d => exact (name_effect σ b store).trans h
  | _ => trivial

theorem flaw?_resolve (supplies : String → Nat → String) (issued : String → Nat) :
    (a.resolve supplies issued).flaw? = a.flaw? := by
  cases a <;> rfl

theorem hosted_resolve (h : a.Hosted σ) (supplies : String → Nat → String)
    (issued : String → Nat) : (a.resolve supplies issued).Hosted σ := by
  cases a with
  | update => exact h
  | _ => trivial

/-- An action without a flaw can fail on a taken identity only. -/
theorem verdict_cases (ha : a.Identified) (hh : a.Hosted σ) :
    (∃ e, a.flaw? = some e ∧ a.verdict σ = .error e) ∨
      a.flaw? = none ∧ (a.verdict σ = .ok () ∨
        ∃ name key, a.verdict σ = .error (.duplicateDocumentKey name key)) := by
  cases a with
  | refuse kind collection documents e => exact Or.inl ⟨e, rfl, rfl⟩
  | insertAll g => exact Or.inr ⟨rfl, Collection.insertAll_result ha⟩
  | update store collection d =>
    cases hv : d.identity? with
    | none =>
      have hk : d.key? = none := by simp [Document.key?, hv]
      have hname : (σ store).name = collection := hh
      refine Or.inl ⟨_, by simp [flaw?, hv]; rfl, ?_⟩
      simp only [verdict, Collection.update_of_no_key? hk, hname]
      rfl
    | some v =>
      refine Or.inr ⟨by simp [flaw?, hv], Or.inl ?_⟩
      simp [verdict, Collection.update_of_key? (Document.key?_of_identity? hv), Except.map]
  | _ => exact Or.inr ⟨rfl, Or.inl rfl⟩

end Action

section CarryOut

variable {t : Triage} {p : Progress} {as : List Action} {w : World}

inductive Ends (t : Triage) (as : List Action) : Except Failure Report → Prop where
  | reports (report : Report)
      (h : ∀ a ∈ as, ∀ e, a.flaw? = some e → t.escalates (.error e) = false) :
      Ends t as (.ok report)
  | stops {a : Action} {e : Failure} (ha : a ∈ as) (he : a.flaw? = some e)
      (hstop : t.escalates (.error e) = true) (operation : String) :
      Ends t as (.error (.transientWrite operation e.message))

theorem Ends.cons {a : Action} {result : Except Failure Report} (h : Ends t as result)
    (ha : ∀ e, a.flaw? = some e → t.escalates (.error e) = false) : Ends t (a :: as) result := by
  cases h with
  | reports report h =>
    refine .reports report fun b hb => ?_
    rcases List.mem_cons.mp hb with rfl | hb
    · exact ha
    · exact h b hb
  | stops hb he hstop => exact .stops (List.mem_cons_of_mem _ hb) he hstop _

theorem Ends.exists_ok_iff {result : Except Failure Report} (h : Ends t as result) :
    (∃ report, result = .ok report) ↔
      ∀ a ∈ as, ∀ e, a.flaw? = some e → t.escalates (.error e) = false := by
  cases h with
  | reports report h => exact ⟨fun _ => h, fun _ => ⟨report, rfl⟩⟩
  | stops ha he hstop =>
    constructor
    · rintro ⟨report, hreport⟩
      cases hreport
    · intro hall
      cases hstop.symm.trans (hall _ ha _ he)

theorem ends_carryOut (hw : w.InMemory) (has : ∀ a ∈ as, a.Planned)
    (hh : ∀ a ∈ as, a.Hosted w.contents) : Ends t as ((carryOut t p as).run w).2.2 := by
  induction as generalizing p w with
  | nil => exact .reports p.report nofun
  | cons a as ih =>
    obtain ⟨hmem, -, -, hcontents, hverdict⟩ := Action.attempted hw (has a List.mem_cons_self)
    have hids := Action.identified_resolve (has a List.mem_cons_self) w.supplies w.issued
    have hhost := Action.hosted_resolve (hh a List.mem_cons_self) w.supplies w.issued
    have hlater : ∀ r, t.escalates r = false →
        (∀ e, a.flaw? = some e → t.escalates (.error e) = false) →
        Ends t (a :: as) ((proceed t p a as r).run (a.attempt.run w).1).2.2 := by
      intro r hr ha
      obtain ⟨notices, hgo⟩ := proceed_of_absorbed hr p a as
      rw [hgo]
      refine (ih hmem (fun b hb => has b (List.mem_cons_of_mem _ hb)) fun b hb => ?_).cons ha
      exact hcontents ▸ (hh b (List.mem_cons_of_mem _ hb)).effect _
    rw [run_carryOut_cons, hverdict]
    -- identities that the store hands out do not mend a flaw
    have hcases := Action.verdict_cases hids hhost
    rw [Action.flaw?_resolve] at hcases
    rcases hcases with ⟨e, hflaw, hv⟩ | ⟨hnone, hv | ⟨name, key, hv⟩⟩
    · rw [hv]
      cases hstop : t.escalates (.error e) with
      | false =>
        refine hlater _ hstop fun e' he' => ?_
        obtain rfl := Option.some.inj (hflaw.symm.trans he')
        exact hstop
      | true =>
        obtain ⟨notices, hend⟩ := proceed_of_escalated hstop p a as
        rw [hend]
        exact .stops List.mem_cons_self hflaw hstop _
    · rw [hv]
      exact hlater _ rfl fun e he => by simp [hnone] at he
    · rw [hv]
      refine hlater _ ?_ fun e he => by simp [hnone] at he
      simp [Triage.escalates, Triage.isTransient]

end CarryOut

/-! ## Flaws of a plan -/

section Plan

variable {intents : List (Binding Object × Intent Object)}

theorem flaw?_alone {p : Binding Object × Intent Object} (hpass : passedOver p = false) :
    (alone p).flaw? = fault? p := by
  obtain ⟨b, i⟩ := p
  cases hd : b.document i.object with
  | error e =>
    cases hk : i.kind <;> simp [alone, fault?, Action.flaw?, hpass, hd, hk]
  | ok d =>
    cases hv : d.identity? with
    | none =>
      cases hk : i.kind <;>
        simp [alone, fault?, Action.insertOne, Action.flaw?, hpass, hd, hk, hv]
    | some v =>
      cases hk : i.kind <;>
        simp [alone, fault?, Action.insertOne, Action.flaw?, hpass, hd, hk, hv]

theorem exists_flaw_iff {e : Failure} :
    (∃ a ∈ plan [] intents, a.flaw? = some e) ↔ ∃ p ∈ intents, fault? p = some e := by
  constructor
  · rintro ⟨a, ha, hflaw⟩
    cases stems_of_mem_plan ha with
    | alone hp hpass => exact ⟨_, hp, flaw?_alone hpass ▸ hflaw⟩
    | _ => cases hflaw
  · rintro ⟨p, hp, hfault⟩
    have hpass : passedOver p = false := by
      by_contra h
      simp [fault?, h] at hfault
    -- what waits for the fault to come up does not matter
    generalize ([] : Waiting) = waiting
    induction intents generalizing waiting with
    | nil => cases hp
    | cons q rest ih =>
      rcases List.mem_cons.mp hp with rfl | hp
      · refine ⟨alone p, ?_, (flaw?_alone hpass).trans hfault⟩
        rcases plan_cons_cases waiting hpass rest with
          ⟨d, hk, hd, -⟩ | ⟨e, -, -, hplan⟩ | ⟨-, hplan⟩
        · simp [fault?, hpass, hk, hd] at hfault
        · simp [hplan]
        · simp [hplan]
      · obtain ⟨front, waiting', hplan⟩ := exists_plan_cons waiting q
        obtain ⟨a, ha, hflaw⟩ := ih hp waiting'
        exact ⟨a, by simp [hplan, ha], hflaw⟩

theorem hosted_of_mem_plan {σ : Contents}
    (hhosts : ∀ p ∈ intents, (σ p.1.store).name = p.1.collection) :
    ∀ a ∈ plan [] intents, a.Hosted σ := by
  intro a ha
  cases stems_of_mem_plan ha with
  | @alone p hp =>
    obtain ⟨b, i⟩ := p
    cases hd : b.document i.object with
    | error e => simp [alone, Action.Hosted, hd]
    | ok d =>
      cases hk : i.kind with
      | insert => simp [alone, Action.insertOne, Action.Hosted, hd, hk]
      | update => simpa [alone, Action.Hosted, hd, hk] using hhosts _ hp
      | remove =>
        cases hv : d.identity? <;> simp [alone, Action.Hosted, hd, hk, hv]
  | _ => trivial

end Plan

/-! ## Whole batches -/

/-- An intent of the batch fails because of its data, and the report of that passes for a transient
failure. -/
def Misleads (bindings : List (Binding Object)) (batch : List (Intent Object)) (e : Failure) :
    Prop :=
  ∃ i ∈ batch, ∃ b, Binding.find? bindings i.typeName = some b ∧ fault? (b, i) = some e ∧
    LooksTransient e

/-- Faulty data never stop a batch by themselves, only through the words of their reports: a batch
comes to a report exactly when no report of a fault mentions one of the phrases, or when the policy
absorbs everything. All failures are then counted. -/
theorem reports_iff_no_fault_misleads {settings : Settings} {bindings : List (Binding Object)}
    {built : Replica Object} (hbuilt : Replica.ofBindings settings bindings = .ok built)
    (hphrases : settings.sync.transientPatterns = defaultPhrases) (policy : Policy)
    {batch : List (Intent Object)}
    (htypes : ∀ i ∈ batch, (Binding.find? bindings i.typeName).isSome) {w : World}
    (hw : w.InMemory) (hhosts : Hosts w bindings) :
    let outcome := (((built.setPolicy policy).1.synchronize batch).run w).2.2
    ((∃ report, outcome = .ok report ∧ report.failedOperations =
          failures w.contents (resolved w.supplies w.issued (planned bindings batch))) ↔
        policy = .catchAll ∨ ∀ e, ¬ Misleads bindings batch e) ∧
      ∀ f, outcome = .error f →
        ∃ e operation, Misleads bindings batch e ∧ f = .transientWrite operation e.message := by
  obtain ⟨-, rfl, htriage⟩ := Replica.eq_of_ofBindings hbuilt
  have hpatterns := patterns_of_ofSettings hphrases htriage
  have hbound := bound_of_known htypes
  have hmem := mem_bound hbound
  generalize hintents : paired built.bindings batch = intents at hbound hmem
  let t : Triage := { built.triage with policy }
  have hplanned : planned built.bindings batch = plan [] intents := by simp [planned, hbound]
  have hrun : (built.setPolicy policy).1.synchronize batch = carryOut t {} (plan [] intents) := by
    simp only [Replica.synchronize, synchronize, Replica.setPolicy, Triage.setPolicy, hbound, t]
  have hmisleads : ∀ e, Misleads built.bindings batch e ↔
      (∃ a ∈ plan [] intents, a.flaw? = some e) ∧ t.isTransient e = true := by
    intro e
    rw [exists_flaw_iff, isTransient_iff (t := t) hpatterns]
    constructor
    · rintro ⟨i, hi, b, hb, hfault, hlooks⟩
      have hp : (b, i) ∈ intents := hintents ▸ List.mem_filterMap.mpr ⟨i, hi, by simp [hb]⟩
      exact ⟨⟨(b, i), hp, hfault⟩, hlooks⟩
    · rintro ⟨⟨p, hp, hfault⟩, hlooks⟩
      exact ⟨p.2, (hmem p hp).1, p.1, (hmem p hp).2, hfault, hlooks⟩
  rw [hrun, hplanned]
  intro outcome
  have hends : Ends t (plan [] intents) outcome :=
    ends_carryOut hw planned_of_mem_plan
      (hosted_of_mem_plan fun p hp => hhosts p.1 (Binding.mem_of_find? (hmem p hp).2))
  constructor
  · have hcounted : (∃ report, outcome = .ok report ∧ report.failedOperations =
        failures w.contents (resolved w.supplies w.issued (plan [] intents))) ↔
          ∃ report, outcome = .ok report := by
      constructor
      · rintro ⟨report, hok, -⟩
        exact ⟨report, hok⟩
      · rintro ⟨report, hok⟩
        have hdone := carriedOut_of_ok hw planned_of_mem_plan (Prod.ext rfl hok)
        exact ⟨report, hok, hdone.failed.trans (Nat.zero_add _)⟩
    rw [hcounted, hends.exists_ok_iff]
    constructor
    · intro hall
      by_cases hpolicy : policy = .catchAll
      · exact Or.inl hpolicy
      · refine Or.inr fun e he => ?_
        obtain ⟨⟨a, ha, hflaw⟩, htrans⟩ := (hmisleads e).mp he
        have hstop : t.escalates (.error e) = true :=
          Triage.escalates_eq_true_iff.mpr ⟨hpolicy, htrans⟩
        rw [hall a ha e hflaw] at hstop
        cases hstop
    · intro hcases a ha e hflaw
      by_contra hstop
      obtain ⟨hpolicy, htrans⟩ := Triage.escalates_eq_true_iff.mp (by simpa using hstop)
      rcases hcases with h | hnone
      · exact hpolicy h
      · exact hnone e ((hmisleads e).mpr ⟨⟨a, ha, hflaw⟩, htrans⟩)
  · intro f hf
    rw [hf] at hends
    cases hends with
    | @stops a e ha hflaw hstop operation =>
      obtain ⟨-, htrans⟩ := Triage.escalates_eq_true_iff.mp hstop
      exact ⟨e, operation, (hmisleads e).mpr ⟨⟨a, ha, hflaw⟩, htrans⟩, rfl⟩

/-! Fruits without a name, in collections of which one has a name that passes for a connection. -/

def fruitsIn (collection : String) : Binding Value :=
  ⟨{ fruitType with collection }, collection, collection, .ofCodec .value "name"⟩

def nameless : List (Intent Value) :=
  [{ kind := .update, typeName := "Fruit", object := .ofFields [("origin", .text "Spain")] },
    fruitIntent .update "pear"]

theorem find?_fruitsIn (collection : String) :
    ∀ i ∈ nameless,
      Binding.find? [fruitsIn collection] i.typeName = some (fruitsIn collection) := by
  intro i hi
  simp only [nameless, List.mem_cons, List.not_mem_nil, or_false] at hi
  rcases hi with rfl | rfl <;> rfl

theorem hosts_fruitsIn (collection : String) : Hosts ⟨.empty⟩ [fruitsIn collection] := by
  intro b hb
  obtain rfl := List.mem_singleton.mp hb
  rfl

/-- The pear is not stored, because the fruit in front of it lacks a name. -/
theorem sockets_stop_nameless :
    let bindings := [fruitsIn "sockets"]
    let w : World := ⟨.empty⟩
    ∃ built, Replica.ofBindings {} bindings = .ok built ∧ built.triage.policy = .rethrowTransient ∧
      w.InMemory ∧ Hosts w bindings ∧
      (∀ i ∈ nameless, (Binding.find? bindings i.typeName).isSome) ∧
      ((built.synchronize nameless).run w).2.2 = .error (.transientWrite "update on 'sockets'"
        "Illegal argument: document without '_id' cannot be written to 'sockets'") ∧
      (((built.synchronize nameless).run w).1.contents.at? ("sockets", "\"pear\"")).isSome =
        false := by
  refine ⟨_, rfl, rfl, inMemory_empty, hosts_fruitsIn _, ?_, ?_, ?_⟩
  · intro i hi
    rw [find?_fruitsIn "sockets" i hi]
    rfl
  · decide +kernel
  · decide +kernel

/-- In a basket the fruit without a name is only counted. -/
theorem baskets_absorb_nameless :
    let bindings := [fruitsIn "baskets"]
    let w : World := ⟨.empty⟩
    ∃ built report, Replica.ofBindings {} bindings = .ok built ∧
      (((built.setPolicy .rethrowTransient).1.synchronize nameless).run w).2.2 = .ok report ∧
      report.failedOperations = 1 := by
  intro bindings w
  have htypes : ∀ i ∈ nameless, (Binding.find? bindings i.typeName).isSome := by
    intro i hi
    rw [find?_fruitsIn "baskets" i hi]
    rfl
  have hnone : ∀ e, ¬ Misleads bindings nameless e := by
    rintro e ⟨i, hi, b, hb, hfault, hlooks⟩
    obtain rfl := Option.some.inj ((find?_fruitsIn "baskets" i hi).symm.trans hb)
    simp only [nameless, List.mem_cons, List.not_mem_nil, or_false] at hi
    rcases hi with rfl | rfl
    · obtain rfl : Failure.illegalArgument
          "document without '_id' cannot be written to 'baskets'" = e := Option.some.inj hfault
      have hclean : ¬ ∃ phrase ∈ defaultPhrases, Mentions phrase (Failure.illegalArgument
          "document without '_id' cannot be written to 'baskets'").message := by decide +kernel
      exact hclean hlooks
    · cases hfault
  obtain ⟨built, hbuilt⟩ : ∃ built, Replica.ofBindings {} bindings = .ok built := ⟨_, rfl⟩
  obtain ⟨report, hok, hfailed⟩ := (reports_iff_no_fault_misleads hbuilt rfl .rethrowTransient
    htypes inMemory_empty (hosts_fruitsIn "baskets")).1.mpr (Or.inr hnone)
  exact ⟨built, report, hbuilt, hok, hfailed.trans (by decide +kernel)⟩

end Sync

end StoredObjects
