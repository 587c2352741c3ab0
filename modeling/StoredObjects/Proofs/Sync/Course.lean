import StoredObjects.Proofs.Store.Replies
import StoredObjects.Proofs.Sync.Blocking

/-! # The calls of a batch

Updates and removals cut a batch into stretches. At the end of a stretch its inserts are made, by
one call for each collection, and then the update or the removal is. These calls are issued one
after another, up to a failure that stops the batch, whatever the stores reply.
-/

namespace StoredObjects

namespace Sync

variable {Object : Type}

/-! ## What is planned -/

/-- The documents that a stretch lets wait, in the order of the batch. -/
def inserted (stretch : List (Binding Object × Intent Object)) :
    List (Binding Object × Document) :=
  stretch.filterMap fun p =>
    if p.2.kind = .insert ∧ p.2.isEcho = false then
      (p.1.document p.2.object).toOption.map (p.1, ·)
    else none

/-- Documents by collections, in the order in which the collections come up. -/
def groups : List (Binding Object × Document) → Waiting
  | [] => []
  | (b, d) :: rest =>
    let others := rest.filter fun q => q.1.collection = b.collection
    ⟨b.store, b.collection, d :: others.map Prod.snd⟩ ::
      (groups rest).filter fun g => g.collection ≠ b.collection

def stretchActions (stretch : List (Binding Object × Intent Object)) : List Action :=
  stretch.filterMap quiet? ++ (groups (inserted stretch)).map .insertAll

def course (stretch : List (Binding Object × Intent Object)) :
    List (Binding Object × Intent Object) → List Action
  | [] => stretchActions stretch
  | p :: rest =>
    if flushes p then stretchActions stretch ++ alone p :: course [] rest
    else course (stretch ++ [p]) rest

def stretchCalls (stretch : List (Binding Object × Intent Object)) : List (String × Call) :=
  (groups (inserted stretch)).map fun g => (g.store, .insertAll g.documents)

/-- The call of an update, or of a removal, which is for an identity and nothing else. -/
def ownCall? : Binding Object × Intent Object → Option (String × Call)
  | (b, i) =>
    match i.kind, b.document i.object with
    | .update, .ok d => some (b.store, .update d)
    | .remove, .ok d => d.identity?.map fun identity => (b.store, .delete (.ofIdentity identity))
    | _, _ => none

/-- The calls of a stretch and of the intents behind it. -/
def plannedCalls (stretch : List (Binding Object × Intent Object)) :
    List (Binding Object × Intent Object) → List (String × Call)
  | [] => stretchCalls stretch
  | p :: rest =>
    if flushes p then stretchCalls stretch ++ (ownCall? p).toList ++ plannedCalls [] rest
    else plannedCalls (stretch ++ [p]) rest

def Action.call? : Action → Option (String × Call)
  | insertAll g => some (g.store, .insertAll g.documents)
  | update store _ d => some (store, .update d)
  | remove store _ identity => some (store, .delete (.ofIdentity identity))
  | skipReloaded | skipKept | refuse .. => none

section Course

variable {stretch rest : List (Binding Object × Intent Object)}
  {p : Binding Object × Intent Object}

theorem filter_add (waiting : Waiting) (store c : String) (d : Document) :
    (waiting.add store c d).filter (fun g => g.collection ≠ c) =
      waiting.filter fun g => g.collection ≠ c := by
  induction waiting with
  | nil => simp [Waiting.add]
  | cons g rest ih =>
    unfold Waiting.add
    by_cases hg : g.collection = c
    · simp [hg]
    · simpa [hg] using ih

theorem filter_add_of_ne (waiting : Waiting) (store : String) {c c' : String} (h : c ≠ c')
    (d : Document) :
    (waiting.add store c d).filter (fun g => g.collection ≠ c') =
      Waiting.add store c d (waiting.filter fun g => g.collection ≠ c') := by
  induction waiting with
  | nil => simp [Waiting.add, h]
  | cons g rest ih =>
    rw [Waiting.add]
    by_cases hg : g.collection = c
    · simp [hg, h, Waiting.add]
    · by_cases hg' : g.collection = c'
      · rw [if_neg hg]
        simpa [hg'] using ih
      · simpa [hg, hg', Waiting.add] using ih

theorem groups_append_singleton (ds : List (Binding Object × Document)) (b : Binding Object)
    (d : Document) : groups (ds ++ [(b, d)]) = (groups ds).add b.store b.collection d := by
  induction ds with
  | nil => rfl
  | cons q ds ih =>
    obtain ⟨c, e⟩ := q
    rw [List.cons_append, groups, ih, groups, Waiting.add]
    by_cases hc : c.collection = b.collection
    · simp only [hc, filter_add]
      simp
    · simp only [filter_add_of_ne _ _ (Ne.symm hc), hc]
      simp [Ne.symm hc]

theorem enqueue_groups (stretch : List (Binding Object × Intent Object))
    (p : Binding Object × Intent Object) :
    enqueue (groups (inserted stretch)) p = groups (inserted (stretch ++ [p])) := by
  by_cases hp : p.2.kind = .insert ∧ p.2.isEcho = false
  · cases hd : p.1.document p.2.object with
    | ok d =>
      rw [show inserted (stretch ++ [p]) = inserted stretch ++ [(p.1, d)] by
        simp [inserted, hp, hd, Except.toOption], groups_append_singleton]
      simp [enqueue, hp, hd]
    | error e => simp [enqueue, inserted, hp, hd, Except.toOption]
  · simp [enqueue, inserted, hp]

/-- A plan holds the inserts that wait; what waits is what the stretch so far inserts. -/
theorem plan_eq_course (stretch rest : List (Binding Object × Intent Object)) :
    stretch.filterMap quiet? ++ plan (groups (inserted stretch)) rest = course stretch rest := by
  have hnil : groups (inserted ([] : List (Binding Object × Intent Object))) = [] := by
    simp [inserted, groups]
  -- an intent that does not flush extends the stretch, and one that does begins a new one
  induction rest generalizing stretch with
  | nil => rfl
  | cons p rest ih =>
    by_cases hp : flushes p = true
    · have hrest := ih []
      rw [List.filterMap_nil, hnil, List.nil_append] at hrest
      rw [course, if_pos hp, plan_cons_of_flushes hp, hrest, stretchActions, List.append_assoc]
    · have hp' : flushes p = false := by simpa using hp
      rw [course, if_neg hp, plan_cons_of_not_flushes hp', enqueue_groups, ← ih,
        ← List.append_assoc]
      cases hq : quiet? p <;> simp [hq]

theorem call?_alone (hp : flushes p = true) : (alone p).call? = ownCall? p := by
  obtain ⟨b, i⟩ := p
  obtain ⟨-, hkind⟩ : passedOver (b, i) = false ∧ i.kind ≠ .insert := by
    simpa [flushes] using hp
  cases hd : b.document i.object with
  | error e => cases hk : i.kind <;> simp [alone, ownCall?, hd, hk, Action.call?]
  | ok d =>
    cases hk : i.kind with
    | insert => exact absurd hk hkind
    | update => simp [alone, ownCall?, hd, hk, Action.call?]
    | remove => cases hv : d.identity? <;> simp [alone, ownCall?, hd, hk, hv, Action.call?]

theorem call?_of_quiet? {a : Action} (ha : quiet? p = some a) : a.call? = none := by
  rcases quiet?_cases ha with rfl | rfl | ⟨-, -, e, rfl⟩ <;> rfl

theorem filterMap_call?_stretchActions (stretch : List (Binding Object × Intent Object)) :
    (stretchActions stretch).filterMap Action.call? = stretchCalls stretch := by
  have hquiet : (stretch.filterMap quiet?).filterMap Action.call? = [] := by
    refine List.filterMap_eq_nil_iff.mpr fun a ha => ?_
    obtain ⟨p, -, hp⟩ := List.mem_filterMap.mp ha
    exact call?_of_quiet? hp
  rw [stretchActions, List.filterMap_append, hquiet, List.nil_append, List.filterMap_map,
    stretchCalls, ← List.filterMap_eq_map]
  rfl

theorem filterMap_call?_course (stretch rest : List (Binding Object × Intent Object)) :
    (course stretch rest).filterMap Action.call? = plannedCalls stretch rest := by
  induction rest generalizing stretch with
  | nil => exact filterMap_call?_stretchActions stretch
  | cons p rest ih =>
    by_cases hp : flushes p = true
    · rw [course, if_pos hp, plannedCalls, if_pos hp, List.filterMap_append,
        filterMap_call?_stretchActions, List.append_assoc, ← ih, ← call?_alone hp]
      cases hc : (alone p).call? <;> simp [hc]
    · rw [course, if_neg hp, plannedCalls, if_neg hp, ih]

theorem exists_of_mem_groups {ds : List (Binding Object × Document)} {g : Group}
    (hg : g ∈ groups ds) :
    ∃ q ∈ ds, g.store = q.1.store ∧ ∀ e ∈ g.documents,
      ∃ q' ∈ ds, q'.1.collection = q.1.collection ∧ q'.2 = e := by
  induction ds with
  | nil => cases hg
  | cons q ds ih =>
    rcases List.mem_cons.mp hg with rfl | hg
    · refine ⟨q, List.mem_cons_self, rfl, fun e he => ?_⟩
      rcases List.mem_cons.mp he with rfl | he
      · exact ⟨q, List.mem_cons_self, rfl, rfl⟩
      · obtain ⟨q', hq', rfl⟩ := List.mem_map.mp he
        obtain ⟨hmem, hc⟩ := List.mem_filter.mp hq'
        exact ⟨q', List.mem_cons_of_mem _ hmem, by simpa using hc, rfl⟩
    · obtain ⟨q₀, hq₀, hstore, hall⟩ := ih (List.mem_filter.mp hg).1
      refine ⟨q₀, List.mem_cons_of_mem _ hq₀, hstore, fun e he => ?_⟩
      obtain ⟨q', hq', h⟩ := hall e he
      exact ⟨q', List.mem_cons_of_mem _ hq', h⟩

theorem mem_inserted {q : Binding Object × Document} (hq : q ∈ inserted stretch) :
    ∃ p ∈ stretch, p.1 = q.1 ∧ q.1.document p.2.object = .ok q.2 := by
  obtain ⟨p, hp, hpq⟩ := List.mem_filterMap.mp hq
  split at hpq
  · cases hd : p.1.document p.2.object with
    | error e => simp [hd, Except.toOption] at hpq
    | ok d =>
      obtain rfl : (p.1, d) = q := by simpa [hd, Except.toOption] using hpq
      exact ⟨p, hp, rfl, hd⟩
  · cases hpq

inductive Stems (intents : List (Binding Object × Intent Object)) : Action → Prop where
  | skipReloaded : Stems intents .skipReloaded
  | skipKept : Stems intents .skipKept
  | insertAll {stretch : List (Binding Object × Intent Object)} {g : Group}
      (hsub : ∀ p ∈ stretch, p ∈ intents) (hg : g ∈ groups (inserted stretch)) :
      Stems intents (.insertAll g)
  | alone {p : Binding Object × Intent Object} (hp : p ∈ intents) (hpass : passedOver p = false) :
      Stems intents (alone p)

theorem stems_of_quiet? {intents : List (Binding Object × Intent Object)} {a : Action}
    (hp : p ∈ intents) (ha : quiet? p = some a) : Stems intents a := by
  rcases quiet?_cases ha with rfl | rfl | ⟨hpass, rfl, -⟩
  · exact .skipReloaded
  · exact .skipKept
  · exact .alone hp hpass

theorem stems_of_mem_course {intents : List (Binding Object × Intent Object)} {a : Action}
    (hstretch : ∀ p ∈ stretch, p ∈ intents) (hrest : ∀ p ∈ rest, p ∈ intents)
    (ha : a ∈ course stretch rest) : Stems intents a := by
  have hend : ∀ {stretch : List (Binding Object × Intent Object)}, (∀ p ∈ stretch, p ∈ intents) →
      a ∈ stretchActions stretch → Stems intents a := by
    intro stretch hsub ha
    rcases List.mem_append.mp ha with ha | ha
    · obtain ⟨p, hp, hq⟩ := List.mem_filterMap.mp ha
      exact stems_of_quiet? (hsub p hp) hq
    · obtain ⟨g, hg, rfl⟩ := List.mem_map.mp ha
      exact .insertAll hsub hg
  induction rest generalizing stretch with
  | nil => exact hend hstretch ha
  | cons p rest ih =>
    have hp : p ∈ intents := hrest p List.mem_cons_self
    have hrest' : ∀ q ∈ rest, q ∈ intents := fun q hq => hrest q (List.mem_cons_of_mem _ hq)
    by_cases hflush : flushes p = true
    · rw [course, if_pos hflush] at ha
      rcases List.mem_append.mp ha with ha | ha
      · exact hend hstretch ha
      · rcases List.mem_cons.mp ha with rfl | ha
        · have hpass : passedOver p = false := by
            simp only [flushes, Bool.and_eq_true, Bool.not_eq_true'] at hflush
            exact hflush.1
          exact .alone hp hpass
        · exact ih (by simp) hrest' ha
    · rw [course, if_neg hflush] at ha
      refine ih (fun q hq => ?_) hrest' ha
      rcases List.mem_append.mp hq with hq | hq
      · exact hstretch q hq
      · exact List.mem_singleton.mp hq ▸ hp

theorem stems_of_mem_plan {intents : List (Binding Object × Intent Object)} {a : Action}
    (ha : a ∈ plan [] intents) : Stems intents a := by
  have hplan : plan [] intents = course [] intents := plan_eq_course [] intents
  exact stems_of_mem_course (by simp) (fun _ hp => hp) (hplan ▸ ha)

end Course

/-! ## What is issued -/

/-- Every action with what comes of it, on the given replies. -/
def met (replies : Replies) : List Action → List (Action × Except Failure Unit)
  | [] => []
  | a :: rest =>
    let (calls, outcome) := a.attempt.converse replies
    (a, outcome) :: met (replies.after calls.length) rest

def Triage.escalates (t : Triage) : Except Failure Unit → Bool
  | .ok () => false
  | .error e => t.policy == .rethrowTransient && t.isTransient e

def Report.add (r : Report) : Action × Except Failure Unit → Report
  | (a, .ok ()) => a.count r
  | (_, .error _) => { r with failedOperations := r.failedOperations + 1 }

section Issued

variable {t : Triage} {p : Progress} {a : Action} {as : List Action} {replies : Replies}

theorem calls_attempt (a : Action) (replies : Replies) :
    (a.attempt.converse replies).1 = a.call?.toList := by
  cases a <;> rfl

theorem Triage.escalates_eq_true_iff {e : Failure} :
    t.escalates (.error e) = true ↔ t.policy ≠ .catchAll ∧ t.isTransient e = true := by
  cases hp : t.policy <;> simp [escalates, hp]

theorem Triage.decide_of_absorbed {e : Failure} (h : t.escalates (.error e) = false) (kind : Kind)
    (collection : String) (documents : List Document) :
    (t.decide kind collection documents e).2 = .ok () := by
  cases hp : t.policy with
  | catchAll => simp [decide, hp]
  | rethrowTransient =>
    have he : t.isTransient e = false := by simpa [escalates, hp] using h
    simp [decide, hp, he]

theorem Triage.decide_of_escalated {e : Failure} (h : t.escalates (.error e) = true) (kind : Kind)
    (collection : String) (documents : List Document) :
    (t.decide kind collection documents e).2 =
      .error (.transientWrite s!"{kind.name} on '{collection}'" e.message) := by
  obtain ⟨hp, he⟩ : t.policy = .rethrowTransient ∧ t.isTransient e = true := by
    simpa [escalates] using h
  simp [decide, hp, he]

theorem proceed_of_absorbed {r : Except Failure Unit} (h : t.escalates r = false)
    (p : Progress) (a : Action) (as : List Action) :
    ∃ notices, proceed t p a as r = carryOut t ⟨p.report.add (a, r), notices⟩ as := by
  cases r with
  | ok u => exact ⟨p.notices, rfl⟩
  | error e =>
    refine ⟨p.notices ++ [(t.decide a.kind a.collection a.documents e).1], ?_⟩
    simp only [proceed, Triage.decide_of_absorbed h, Report.add]

theorem proceed_of_escalated {e : Failure} (h : t.escalates (.error e) = true) (p : Progress)
    (a : Action) (as : List Action) :
    ∃ notices, proceed t p a as (.error e) =
      .done (notices,
        .error (.transientWrite s!"{a.kind.name} on '{a.collection}'" e.message)) := by
  refine ⟨p.notices ++ [(t.decide a.kind a.collection a.documents e).1], ?_⟩
  simp only [proceed, Triage.decide_of_escalated h]

theorem converse_carryOut_cons (t : Triage) (p : Progress) (a : Action) (as : List Action)
    (replies : Replies) :
    (carryOut t p (a :: as)).converse replies =
      let rest := (proceed t p a as (a.attempt.converse replies).2).converse
        (replies.after (a.attempt.converse replies).1.length)
      (a.call?.toList ++ rest.1, rest.2) := by
  rw [carryOut_cons, Program.converse_bind, ← calls_attempt]

/-- While nothing escalates, all calls are issued and counted. -/
theorem converse_of_absorbed (h : ∀ x ∈ met replies as, t.escalates x.2 = false) :
    ∃ notices, (carryOut t p as).converse replies =
      (as.filterMap Action.call?, notices, .ok ((met replies as).foldl Report.add p.report)) := by
  induction as generalizing p replies with
  | nil => exact ⟨p.notices, rfl⟩
  | cons a as ih =>
    obtain ⟨notices, hgo⟩ := proceed_of_absorbed (h _ List.mem_cons_self) p a as
    obtain ⟨notices', hrest⟩ := ih (p := ⟨_, notices⟩) fun x hx => h x (List.mem_cons_of_mem _ hx)
    refine ⟨notices', ?_⟩
    rw [converse_carryOut_cons, hgo, hrest]
    cases hc : a.call? <;> simp [hc, met]

/-- The first failure that escalates ends the conversation. -/
theorem converse_of_escalated {front back : List (Action × Except Failure Unit)} {e : Failure}
    (hmet : met replies as = front ++ (a, .error e) :: back)
    (hfront : ∀ x ∈ front, t.escalates x.2 = false) (he : t.escalates (.error e) = true) :
    ∃ notices, (carryOut t p as).converse replies =
      ((front.map Prod.fst ++ [a]).filterMap Action.call?, notices,
        .error (.transientWrite s!"{a.kind.name} on '{a.collection}'" e.message)) := by
  -- the actions in front of the failing one are taken off `as` and `front` together
  induction as generalizing p replies front with
  | nil => simp [met] at hmet
  | cons b as ih =>
    rw [converse_carryOut_cons]
    cases front with
    | nil =>
      obtain ⟨hfirst, -⟩ := List.cons_eq_cons.mp hmet
      obtain ⟨rfl, hreply⟩ := Prod.mk.inj hfirst
      obtain ⟨notices, hstop⟩ := proceed_of_escalated he p b as
      refine ⟨notices, ?_⟩
      rw [hreply, hstop]
      cases hc : b.call? <;> simp [hc, Program.converse]
    | cons x front =>
      obtain ⟨rfl, hlater⟩ := List.cons_eq_cons.mp hmet
      obtain ⟨notices, hgo⟩ := proceed_of_absorbed (hfront _ List.mem_cons_self) p b as
      obtain ⟨notices', hrest⟩ :=
        ih (p := ⟨_, notices⟩) hlater fun y hy => hfront y (List.mem_cons_of_mem _ hy)
      refine ⟨notices', ?_⟩
      rw [hgo, hrest]
      cases hc : b.call? <;> simp [hc]

theorem map_fst_met (replies : Replies) (as : List Action) :
    (met replies as).map Prod.fst = as := by
  induction as generalizing replies with
  | nil => rfl
  | cons a as ih => simp [met, ih]

theorem calls_carryOut_prefix (t : Triage) (p : Progress) (as : List Action) (replies : Replies) :
    ((carryOut t p as).converse replies).1 <+: as.filterMap Action.call? := by
  by_cases h : ∀ x ∈ met replies as, t.escalates x.2 = false
  · obtain ⟨notices, hall⟩ := converse_of_absorbed (p := p) h
    simp [hall]
  · have hex : ((met replies as).find? fun x => t.escalates x.2).isSome := by
      simpa using h
    obtain ⟨⟨a, r⟩, hfind⟩ := Option.isSome_iff_exists.mp hex
    obtain ⟨he, front, back, hmet, hfront⟩ := List.find?_eq_some_iff_append.mp hfind
    cases r with
    | ok u => cases he
    | error e =>
      obtain ⟨notices, hstop⟩ :=
        converse_of_escalated (p := p) hmet (fun x hx => by simpa using hfront x hx) he
      rw [hstop, ← map_fst_met replies as, hmet]
      exact List.IsPrefix.filterMap _ ⟨back.map Prod.fst, by simp⟩

theorem calls_carryOut {P : String → Call → Prop}
    (has : ∀ a ∈ as, ∀ store c, a.call? = some (store, c) → P store c) :
    (carryOut t p as).Calls P := by
  induction as generalizing p with
  | nil => trivial
  | cons a as ih =>
    have hattempt : a.attempt.Calls P := by
      have ha := has a List.mem_cons_self
      cases a with
      | insertAll g => exact .perform (ha _ _ rfl)
      | update => exact .perform (ha _ _ rfl)
      | remove => exact .perform (ha _ _ rfl)
      | _ => trivial
    rw [carryOut_cons]
    refine hattempt.bind fun r => ?_
    rcases proceed_cases t p a as r with ⟨q, hq⟩ | ⟨result, hr⟩
    · rw [hq]
      exact ih fun b hb => has b (List.mem_cons_of_mem _ hb)
    · rw [hr]
      trivial

end Issued

/-! ## Whole batches -/

section Batch

variable {bindings : List (Binding Object)} {t : Triage} {batch : List (Intent Object)}

theorem calls_synchronize {P : String → Call → Prop}
    (h : ∀ a ∈ planned bindings batch, ∀ store c, a.call? = some (store, c) → P store c) :
    (synchronize bindings t batch).Calls P := by
  rcases synchronize_cases bindings t batch with hrun | ⟨e, hrun⟩
  · rw [hrun]
    exact calls_carryOut h
  · rw [hrun]
    trivial

/-- What a batch does on stores is a conversation, and the stores note its calls. -/
theorem exists_conversation_eq_run (bindings : List (Binding Object)) (t : Triage)
    (batch : List (Intent Object)) (w : World) :
    let program := synchronize bindings t batch
    ∃ replies, (program.run w).2 = (program.converse replies).2 ∧ ∀ key,
      (program.run w).1.journal key =
        w.journal key ++ ((program.converse replies).1.filter (·.1 = key)).map Prod.snd := by
  apply Program.exists_converse_eq_run
  apply calls_synchronize
  intro a _ store c hcall share hc
  cases a with
  | insertAll => cases hcall; cases hc
  | update => cases hcall; cases hc
  | remove => cases hcall; cases hc
  | _ => cases hcall

/-- A batch that names an unknown type calls nothing. Any other batch issues the planned calls from
the first one on, up to the first failure that stops it; without one it issues all of them. -/
theorem conversation_of_batch (bindings : List (Binding Object)) (t : Triage)
    (batch : List (Intent Object)) (replies : Replies) :
    let known := fun i : Intent Object => (Binding.find? bindings i.typeName).isSome
    let steps := course [] (paired bindings batch)
    let due := plannedCalls [] (paired bindings batch)
    let calls := ((synchronize bindings t batch).converse replies).1
    let outcome := ((synchronize bindings t batch).converse replies).2.2
    (∀ before i after, batch = before ++ i :: after → (∀ j ∈ before, known j = true) →
      known i = false → calls = [] ∧ outcome = .error (.unknownType i.typeName)) ∧
    ((∀ i ∈ batch, known i = true) →
      calls <+: due ∧
      ((∀ x ∈ met replies steps, t.escalates x.2 = false) →
        calls = due ∧
          outcome = .ok ((met replies steps).foldl Report.add {})) ∧
      ∀ front a e back, met replies steps = front ++ (a, .error e) :: back →
        (∀ x ∈ front, t.escalates x.2 = false) → t.escalates (.error e) = true →
        calls = (front.map Prod.fst ++ [a]).filterMap Action.call? ∧
          outcome = .error (.transientWrite s!"{a.kind.name} on '{a.collection}'" e.message)) := by
  intro known steps due calls outcome
  have hdue : steps.filterMap Action.call? = due := filterMap_call?_course [] _
  constructor
  · intro before i after hbatch hbefore hi
    have hrun : synchronize bindings t batch = .done ([], .error (.unknownType i.typeName)) := by
      have hi' : Binding.find? bindings i.typeName = none := by simpa [known] using hi
      simp only [synchronize, hbatch, bound_of_unknown hbefore hi']
    simp [calls, outcome, hrun, Program.converse]
  · intro hknown
    have hsteps : plan [] (paired bindings batch) = steps := plan_eq_course [] _
    have hrun : synchronize bindings t batch = carryOut t {} steps := by
      simp only [synchronize, bound_of_known hknown, hsteps]
    refine ⟨?_, ?_, ?_⟩
    · rw [← hdue]
      simp only [calls, hrun]
      exact calls_carryOut_prefix t {} steps replies
    · intro habsorbed
      obtain ⟨notices, hall⟩ := converse_of_absorbed (p := {}) habsorbed
      rw [← hdue]
      simp [calls, outcome, hrun, hall]
    · intro front a e back hmet hfront he
      obtain ⟨notices, hstop⟩ := converse_of_escalated (p := {}) hmet hfront he
      simp [calls, outcome, hrun, hstop]

/-! The harvest, on stores that answer and with growers that cannot be reached. -/

def emptyStores : Replies := fun _ store c => ((⟨.empty⟩ : World).answer store c).2

def secondFails : Replies := fun n store c =>
  if n = 1 then .error (.connectivity "down") else emptyStores n store c

def stamped (name : String) : Document := (Document.ofIdentity (.text name)).setVersion 2

/-- The inserts wait for the update, and the removal needs an identity only. Nothing is called
behind the growers when these cannot be reached. -/
theorem harvest_conversations :
    let answered := (synchronize orchard.bindings orchard.triage harvest).converse emptyStores
    let stopped := (synchronize orchard.bindings orchard.triage harvest).converse secondFails
    answered.1 = [("fruits", .insertAll [stamped "apple", stamped "pear"]),
        ("growers", .insertAll [stamped "Ann"]), ("fruits", .update (stamped "plum")),
        ("fruits", .delete (.ofIdentity (.text "apple")))] ∧
      stopped.1 = [("fruits", .insertAll [stamped "apple", stamped "pear"]),
        ("growers", .insertAll [stamped "Ann"])] ∧
      stopped.2.2 = .error (.transientWrite "insert on 'growers'" "Connectivity error: down") := by
  intro answered stopped
  have hknown : ∀ i ∈ harvest, (Binding.find? orchard.bindings i.typeName).isSome = true := by
    decide
  obtain ⟨hall, -⟩ := ((conversation_of_batch orchard.bindings orchard.triage harvest
    emptyStores).2 hknown).2.1 (by decide)
  obtain ⟨hcalls, houtcome⟩ := ((conversation_of_batch orchard.bindings orchard.triage harvest
    secondFails).2 hknown).2.2 [_] _ _ [_, _] rfl (by decide) rfl
  refine ⟨?_, ?_, houtcome⟩
  · rw [hall]
    rfl
  · rw [hcalls]
    rfl

end Batch

end Sync

end StoredObjects
