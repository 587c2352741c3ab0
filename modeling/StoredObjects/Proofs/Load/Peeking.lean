import StoredObjects.Proofs.Load.DeathReports

/-! # Peeked objects

A reader of a lazy load may look whether an object is there before he takes it. What he saw stays
his, whatever fails meanwhile: the objects that left the queue are those that he took, in the same
order, and one more as long as one is peeked. With nothing peeked, a recorded failure is all that
the calls from then on are told.
-/

namespace StoredObjects

namespace Load

variable {Object : Type}

namespace Stream

/-! ## Calls -/

inductive Request where
  | hasNext
  | next
  deriving DecidableEq, Repr

inductive Reply (Object : Type) where
  | found (there : Bool)
  | object (object? : Option Object)
  | failed (e : Failure)

def Reply.ofHasNext : Except Failure Bool → Reply Object
  | .ok there => .found there
  | .error e => .failed e

def Reply.ofNext : Except Failure (Option Object) → Reply Object
  | .ok object? => .object object?
  | .error e => .failed e

/-- A call, once or again while it waits. -/
def ask (s : Stream Object) : Request → Stream Object × Option (Reply Object)
  | .hasNext => (s.hasNext.1, s.hasNext.2.map Reply.ofHasNext)
  | .next => (s.next.1, s.next.2.map Reply.ofNext)

namespace Request

def keeps (request : Request) (object : Object) : Option Object :=
  match request with
  | hasNext => some object
  | next => none

def reply (request : Request) (object? : Option Object) : Reply Object :=
  match request with
  | hasNext => .found object?.isSome
  | next => .object object?

end Request

variable {s s' s₀ : Stream Object} {request : Request} {under under' : Option Request}

inductive Meets (s : Stream Object) (request : Request) :
    Stream Object → Option (Reply Object) → Prop where
  | peeked {object : Object} (hpeeked : s.peeked = some object) :
      Meets s request { s with peeked := request.keeps object } (some (request.reply (some object)))
  | queued {object : Object} {rest : List Object} (hpeeked : s.peeked = none)
      (hlooked : s.waiting = true ∨ s.failure = none) (hqueue : s.queue = object :: rest) :
      Meets s request { s with queue := rest, peeked := request.keeps object, waiting := false }
        (some (request.reply (some object)))
  | failed {e : Failure} (hpeeked : s.peeked = none) (hfailure : s.failure = some e) :
      Meets s request { s with waiting := false } (some (.failed e))
  | ended (hpeeked : s.peeked = none) (hfailure : s.failure = none) :
      Meets s request { s with waiting := false } (some (request.reply none))
  | waits (hpeeked : s.peeked = none) (hlooked : s.waiting = true ∨ s.failure = none) :
      Meets s request { s with waiting := true } none

theorem ask_of_peeked {object : Object} (hpeeked : s.peeked = some object) (request : Request) :
    s.ask request =
      ({ s with peeked := request.keeps object }, some (request.reply (some object))) := by
  have hsame : { s with peeked := some object } = s := by rw [← hpeeked]
  cases request with
  | hasNext => simp [ask, hasNext, hpeeked, Request.keeps, Request.reply, Reply.ofHasNext, hsame]
  | next => simp [ask, next, hasNext, hpeeked, Request.keeps, Request.reply, Reply.ofNext]

theorem ask_of_failure (hpeeked : s.peeked = none) (hwaiting : s.waiting = false) {e : Failure}
    (hfailure : s.failure = some e) (request : Request) :
    s.ask request = (s, some (.failed e)) := by
  cases request with
  | hasNext => simp [ask, hasNext, hpeeked, hwaiting, hfailure, Reply.ofHasNext]
  | next => simp [ask, next_of_failure hpeeked hwaiting hfailure, Reply.ofNext]

section Looked

variable (hpeeked : s.peeked = none) (hlooked : s.waiting = true ∨ s.failure = none)
include hpeeked hlooked

theorem ask_of_queue {object : Object} {rest : List Object} (hqueue : s.queue = object :: rest)
    (request : Request) :
    s.ask request = ({ s with queue := rest, peeked := request.keeps object, waiting := false },
      some (request.reply (some object))) := by
  cases request with
  | hasNext =>
    rcases hlooked with h | h <;>
      simp [ask, hasNext, hpeeked, h, hqueue, Request.keeps, Request.reply, Reply.ofHasNext]
  | next =>
    simp [ask, next_of_queue hpeeked hlooked hqueue, Request.keeps, Request.reply, Reply.ofNext]

theorem ask_of_open (hqueue : s.queue = []) (hclosed : s.isClosed = false) (request : Request) :
    s.ask request = ({ s with waiting := true }, none) := by
  cases request with
  | hasNext => rcases hlooked with h | h <;> simp [ask, hasNext, hpeeked, h, hqueue, hclosed]
  | next => simp [ask, next_of_open hpeeked hlooked hqueue hclosed]

theorem ask_of_closed (hqueue : s.queue = []) (hclosed : s.isClosed = true) (request : Request) :
    s.ask request = ({ s with waiting := false },
      some (s.failure.elim (request.reply none) .failed)) := by
  cases request with
  | hasNext =>
    rcases hlooked with h | h <;> cases hfailure : s.failure <;>
      simp_all [ask, hasNext, Request.reply, Reply.ofHasNext]
  | next =>
    rw [ask, next_of_closed hpeeked hlooked hqueue hclosed]
    cases s.failure <;> rfl

end Looked

theorem meets_ask (s : Stream Object) (request : Request) :
    Meets s request (s.ask request).1 (s.ask request).2 := by
  cases hpeeked : s.peeked with
  | some object =>
    rw [ask_of_peeked hpeeked]
    exact .peeked hpeeked
  | none =>
    by_cases hlooked : s.waiting = true ∨ s.failure = none
    · cases hqueue : s.queue with
      | cons object rest =>
        rw [ask_of_queue hpeeked hlooked hqueue]
        exact .queued hpeeked hlooked hqueue
      | nil =>
        cases hclosed : s.isClosed with
        | false =>
          rw [ask_of_open hpeeked hlooked hqueue hclosed]
          exact .waits hpeeked hlooked
        | true =>
          have hask := ask_of_closed hpeeked hlooked hqueue hclosed request
          rcases Option.eq_none_or_eq_some s.failure with hfailure | ⟨e, hfailure⟩
          · have hreply : s.failure.elim (request.reply none) .failed =
                (request.reply none : Reply Object) := by rw [hfailure]; rfl
            rw [hask, hreply]
            exact .ended hpeeked hfailure
          · have hreply : s.failure.elim (request.reply none) .failed =
                (.failed e : Reply Object) := by rw [hfailure]; rfl
            rw [hask, hreply]
            exact .failed hpeeked hfailure
    · obtain ⟨hwaiting, hfailure⟩ := not_or.mp hlooked
      obtain ⟨e, he⟩ := Option.ne_none_iff_exists'.mp hfailure
      have hwaiting : s.waiting = false := Bool.eq_false_of_not_eq_true hwaiting
      have hsame : { s with waiting := false } = s := by rw [← hwaiting]
      have hmeets : Meets s request { s with waiting := false } (some (.failed e)) :=
        .failed hpeeked he
      rw [ask_of_failure hpeeked hwaiting he]
      rwa [hsame] at hmeets

theorem meets_of_ask {reply : Option (Reply Object)} (hask : s.ask request = (s', reply)) :
    Meets s request s' reply := by
  have hmeets := meets_ask s request
  rwa [hask] at hmeets

/-! ## Runs -/

/-- A call that was answered, and the objects that it took out of the queue. -/
structure Exchange (Object : Type) where
  request : Request
  received : List Object
  reply : Reply Object

namespace Exchange

def returned? (x : Exchange Object) : Option Object :=
  match x.reply with
  | .object object? => object?
  | .found _ | .failed _ => none

end Exchange

def received (history : List (Exchange Object)) : List Object :=
  history.flatMap Exchange.received

def returned (history : List (Exchange Object)) : List Object :=
  history.filterMap Exchange.returned?

@[simp] theorem received_append (history history' : List (Exchange Object)) :
    received (history ++ history') = received history ++ received history' := List.flatMap_append

@[simp] theorem received_singleton (x : Exchange Object) : received [x] = x.received := by
  simp [received]

@[simp] theorem returned_append (history history' : List (Exchange Object)) :
    returned (history ++ history') = returned history ++ returned history' := List.filterMap_append

@[simp] theorem returned_singleton (x : Exchange Object) : returned [x] = x.returned?.toList := by
  cases h : x.returned? <;> simp [returned, h]

/-- The parts move, and objects arrive and failures are recorded in whatever other way, while a
reader makes his calls, one after another. A call may be `under` way when the run starts. A call
that waits is asked again, or given up. -/
inductive Asked (under₀ : Option Request) (s₀ : Stream Object) :
    Option Request → List (Exchange Object) → Stream Object → Prop where
  | start : Asked under₀ s₀ under₀ [] s₀
  | moved {under : Option Request} {history : List (Exchange Object)} {s s' : Stream Object}
      {e : Event} (h : Asked under₀ s₀ under history s) (hmove : s.next? e = some s') :
      Asked under₀ s₀ under history s'
  | arrived {under : Option Request} {history : List (Exchange Object)} {s : Stream Object}
      (h : Asked under₀ s₀ under history s) (object : Object) :
      Asked under₀ s₀ under history { s with queue := s.queue ++ [object] }
  | recorded {under : Option Request} {history : List (Exchange Object)} {s : Stream Object}
      (h : Asked under₀ s₀ under history s) (e : Failure) :
      Asked under₀ s₀ under history (s.record e)
  | waited {under : Option Request} {history : List (Exchange Object)} {s s' : Stream Object}
      {request : Request} (h : Asked under₀ s₀ under history s)
      (hunder : under = none ∨ under = some request) (hask : s.ask request = (s', none)) :
      Asked under₀ s₀ (some request) history s'
  | answered {under : Option Request} {history : List (Exchange Object)} {s s' : Stream Object}
      {request : Request} {received : List Object} {reply : Reply Object}
      (h : Asked under₀ s₀ under history s) (hunder : under = none ∨ under = some request)
      (hask : s.ask request = (s', some reply)) (hqueue : s.queue = received ++ s'.queue) :
      Asked under₀ s₀ none (history ++ [⟨request, received, reply⟩]) s'
  | gaveUp {request : Request} {history : List (Exchange Object)} {s : Stream Object}
      (h : Asked under₀ s₀ (some request) history s) :
      Asked under₀ s₀ none history { s with waiting := false }

variable {history history' : List (Exchange Object)} {under₀ : Option Request}

/-- What the parts leave alone. They may let a waiting reader look for failures again. -/
structure Elsewhere (s s' : Stream Object) : Prop where
  peeked : s'.peeked = s.peeked
  failure : ∀ e, s.failure = some e → s'.failure = some e
  waiting : s.waiting = false → s'.waiting = false

theorem failure_record_of_some {e f : Failure} (hfailure : s.failure = some e) :
    (s.record f).failure = some e := by
  simp [record, hfailure]

theorem Advance.elsewhere {s₁ : Stream Object} {t t' : Task Object} (h : Advance s t s₁ t') :
    Elsewhere s s₁ := by
  cases h with
  | failed => exact ⟨rfl, fun _ => failure_record_of_some, id⟩
  | _ => exact ⟨rfl, fun _ => id, id⟩

theorem elsewhere_collected (s : Stream Object) : Elsewhere s s.collected := by
  simp only [Stream.collected]
  split
  · exact ⟨rfl, fun _ => failure_record_of_some, id⟩
  · exact ⟨rfl, fun _ => id, id⟩

theorem Move.elsewhere {e : Event} (h : Move s e s') : Elsewhere s s' := by
  cases h with
  | broken => exact ⟨rfl, fun _ => failure_record_of_some, id⟩
  | accepted =>
    unfold accept
    split <;> exact ⟨rfl, fun _ => id, id⟩
  | worked hf hadv =>
    obtain ⟨hpeeked, hfailure, hwaiting⟩ := hadv.elsewhere
    exact ⟨hpeeked, hfailure, hwaiting⟩
  | advanced ht hadv =>
    obtain ⟨hpeeked, hfailure, hwaiting⟩ := hadv.elsewhere
    exact ⟨hpeeked, hfailure, hwaiting⟩
  | resumed =>
    obtain ⟨hpeeked, hfailure, hwaiting⟩ := elsewhere_collected s
    exact ⟨hpeeked, hfailure, hwaiting⟩
  | collected => exact elsewhere_collected s
  | woke => exact ⟨rfl, fun _ => id, fun _ => rfl⟩
  | _ => exact ⟨rfl, fun _ => id, id⟩

/-! ## What is seen is kept -/

theorem eq_singleton_of_front {object : Object} {rest received queue : List Object}
    (hfront : queue = object :: rest) (hqueue : queue = received ++ rest) :
    received = [object] := by
  rw [hfront, ← List.singleton_append] at hqueue
  exact (List.append_cancel_right hqueue).symm

/-- A call that is answered takes one object out of the queue at most, and none that it does not
return or keep. -/
theorem Meets.kept {received : List Object} {reply : Reply Object}
    (h : Meets s request s' (some reply)) (hqueue : s.queue = received ++ s'.queue) :
    s.peeked.toList ++ received =
      (⟨request, received, reply⟩ : Exchange Object).returned?.toList ++ s'.peeked.toList := by
  cases h with
  | @peeked object hpeeked =>
    obtain rfl : received = [] := List.self_eq_append_left.mp hqueue
    cases request <;> simp [hpeeked, Exchange.returned?, Request.reply, Request.keeps]
  | @queued object rest hpeeked hlooked hfront =>
    obtain rfl : received = [object] := eq_singleton_of_front hfront hqueue
    cases request <;> simp [hpeeked, Exchange.returned?, Request.reply, Request.keeps]
  | failed hpeeked =>
    obtain rfl : received = [] := List.self_eq_append_left.mp hqueue
    simp [hpeeked, Exchange.returned?]
  | ended hpeeked =>
    obtain rfl : received = [] := List.self_eq_append_left.mp hqueue
    cases request <;> simp [hpeeked, Exchange.returned?, Request.reply]

/-- Nothing is lost between the queue and the reader, and nothing is peeked while a call waits. -/
structure Faithful (under : Option Request) (history : List (Exchange Object)) (s : Stream Object) :
    Prop where
  kept : received history = returned history ++ s.peeked.toList
  free : under.isSome = true → s.peeked = none
  idle : under = none → s.waiting = false

theorem Faithful.elsewhere (h : Faithful under history s) (helse : Elsewhere s s') :
    Faithful under history s' :=
  ⟨helse.peeked ▸ h.kept, helse.peeked ▸ h.free, fun hnone => helse.waiting (h.idle hnone)⟩

theorem Faithful.waited (h : Faithful under history s) (hmeets : Meets s request s' none) :
    Faithful (some request) history s' := by
  cases hmeets with
  | waits hpeeked => exact ⟨h.kept, fun _ => hpeeked, by simp⟩

theorem Faithful.under_eq_none (h : Faithful under history s) (hpeeked : s.peeked.isSome = true) :
    under = none := by
  by_contra hsome
  rw [h.free (Option.isSome_iff_ne_none.mpr hsome)] at hpeeked
  cases hpeeked

theorem Faithful.answered (h : Faithful under history s) {reply : Reply Object}
    {received : List Object} (hmeets : Meets s request s' (some reply))
    (hqueue : s.queue = received ++ s'.queue) :
    Faithful none (history ++ [⟨request, received, reply⟩]) s' := by
  refine ⟨?_, by simp, fun _ => ?_⟩
  · have hkept := hmeets.kept hqueue
    rw [received_append, h.kept, received_singleton, List.append_assoc, hkept, returned_append,
      returned_singleton, List.append_assoc]
  · cases hmeets with
    | peeked hpeeked => exact h.idle (h.under_eq_none (by simp [hpeeked]))
    | _ => rfl

theorem Asked.faithful (hrun : Asked under₀ s₀ under history s) (h : Faithful under₀ [] s₀) :
    Faithful under history s := by
  induction hrun with
  | start => exact h
  | moved _ hmove ih => exact ih.elsewhere (move_of_next? hmove).elsewhere
  | arrived _ object ih => exact ih.elsewhere ⟨rfl, fun _ => id, id⟩
  | recorded _ e ih => exact ih.elsewhere ⟨rfl, fun _ => failure_record_of_some, id⟩
  | waited _ _ hask ih => exact ih.waited (meets_of_ask hask)
  | answered _ _ hask hqueue ih => exact ih.answered (meets_of_ask hask) hqueue
  | gaveUp _ ih => exact ⟨ih.kept, fun _ => ih.free rfl, fun _ => rfl⟩

theorem Meets.isSome_peeked {reply : Reply Object} (h : Meets s .hasNext s' (some reply))
    (hreply : reply = .found true) : s'.peeked.isSome = true := by
  cases h with
  | peeked => rfl
  | queued => rfl
  | failed => cases hreply
  | ended => simp [Request.reply] at hreply

theorem ask_hasNext_of_peeked {object : Object} (hpeeked : s.peeked = some object) :
    s.ask .hasNext = (s, some (.found true)) := by
  have hsame : { s with peeked := some object } = s := by rw [← hpeeked]
  exact (ask_of_peeked hpeeked .hasNext).trans (congrArg (·, _) hsame)

def Seen (between history : List (Exchange Object)) : Prop :=
  (∃ before received, history = before ++ ⟨.hasNext, received, .found true⟩ :: between) ∧
    ∀ x ∈ between, x.request = .hasNext

theorem Asked.peeked_of_seen (hrun : Asked under₀ s₀ under history s) (h : Faithful under₀ [] s₀)
    {between : List (Exchange Object)} (hseen : Seen between history) :
    s.peeked.isSome = true ∧ ∀ x ∈ between, x = ⟨.hasNext, [], .found true⟩ := by
  induction hrun generalizing between with
  | start =>
    obtain ⟨⟨before, received, hsplit⟩, -⟩ := hseen
    simp at hsplit
  | moved _ hmove ih =>
    rw [(move_of_next? hmove).elsewhere.peeked]
    exact ih hseen
  | arrived _ object ih => exact ih hseen
  | recorded _ e ih => exact ih hseen
  | waited _ _ hask ih =>
    obtain ⟨hpeeked, -⟩ := ih hseen
    cases meets_of_ask hask with
    | waits hnone => simp [hnone] at hpeeked
  | gaveUp hbefore ih =>
    obtain ⟨hpeeked, -⟩ := ih hseen
    simp [(hbefore.faithful h).free rfl] at hpeeked
  | @answered under history s s' request received reply hbefore _ hask hqueue ih =>
    obtain ⟨⟨before, got, hsplit⟩, hrequests⟩ := hseen
    -- The history ends with the call that found the object, or with a look after it.
    rcases List.eq_nil_or_concat between with rfl | ⟨between, x, rfl⟩
    · obtain ⟨-, hlast⟩ := List.append_inj' hsplit rfl
      cases hlast
      exact ⟨(meets_of_ask hask).isSome_peeked rfl, by simp⟩
    · rw [List.concat_eq_append, ← List.cons_append, ← List.append_assoc] at hsplit
      obtain ⟨hhistory, hlast⟩ := List.append_inj' hsplit rfl
      cases hlast
      simp only [List.concat_eq_append, List.forall_mem_append, List.forall_mem_singleton]
        at hrequests ⊢
      obtain ⟨hrequests, rfl⟩ := hrequests
      obtain ⟨hpeeked, hbetween⟩ := ih ⟨⟨before, got, hhistory⟩, hrequests⟩
      obtain ⟨object, hobject⟩ := Option.isSome_iff_exists.mp hpeeked
      rw [ask_hasNext_of_peeked hobject] at hask
      cases hask
      obtain rfl : received = [] := List.self_eq_append_left.mp hqueue
      exact ⟨hpeeked, hbetween, rfl⟩

/-! ## Failures stay -/

theorem Meets.received_le {received : List Object} {reply : Reply Object}
    (h : Meets s request s' (some reply)) (hqueue : s.queue = received ++ s'.queue) {e : Failure}
    (hfailure : s.failure = some e) :
    s'.failure = some e ∧ received.length + s'.waiting.toNat ≤ s.waiting.toNat := by
  cases h with
  | peeked =>
    obtain rfl : received = [] := List.self_eq_append_left.mp hqueue
    exact ⟨hfailure, by simp⟩
  | @queued object rest hpeeked hlooked hfront =>
    have hwaiting : s.waiting = true := by simpa [hfailure] using hlooked
    obtain rfl : received = [object] := eq_singleton_of_front hfront hqueue
    exact ⟨hfailure, by simp [hwaiting]⟩
  | failed =>
    obtain rfl : received = [] := List.self_eq_append_left.mp hqueue
    exact ⟨hfailure, by simp⟩
  | ended hpeeked hnone => simp [hnone] at hfailure

/-- Once a failure is recorded, it stays, and at most one more object is received. -/
theorem Asked.received_le (hrun : Asked under₀ s₀ under history s) {e : Failure}
    (hfailure : s₀.failure = some e) :
    s.failure = some e ∧ (received history).length + s.waiting.toNat ≤ s₀.waiting.toNat := by
  induction hrun with
  | start => exact ⟨hfailure, by simp [received]⟩
  | @moved under history s s' f _ hmove ih =>
    obtain ⟨-, hkept, hwaiting⟩ := (move_of_next? hmove).elsewhere
    have hle : s'.waiting.toNat ≤ s.waiting.toNat := by
      cases hs : s.waiting with
      | false => simp [hwaiting hs]
      | true => exact Bool.toNat_le _
    exact ⟨hkept e ih.1, (Nat.add_le_add_left hle _).trans ih.2⟩
  | arrived _ object ih => exact ih
  | recorded _ f ih => exact ⟨failure_record_of_some ih.1, ih.2⟩
  | @waited under history s s' request _ _ hask ih =>
    cases meets_of_ask hask with
    | waits hpeeked hlooked =>
      have hwaiting : s.waiting = true := by simpa [ih.1] using hlooked
      rw [hwaiting] at ih
      exact ih
  | answered _ _ hask hqueue ih =>
    obtain ⟨hkept, hle⟩ := (meets_of_ask hask).received_le hqueue ih.1
    have hbefore := ih.2
    rw [received_append, received_singleton, List.length_append]
    refine ⟨hkept, ?_⟩
    simp only
    omega
  | gaveUp _ ih => exact ⟨ih.1, (Nat.add_le_add_left (Nat.zero_le _) _).trans ih.2⟩

/-- With nothing peeked and no call under way, all calls are told of the failure. -/
theorem Asked.all_failed (hrun : Asked none s₀ under history s) {e : Failure}
    (hfailure : s₀.failure = some e) (hpeeked : s₀.peeked = none) (hwaiting : s₀.waiting = false) :
    under = none ∧ s.peeked = none ∧ s.waiting = false ∧
      ∀ x ∈ history, x.received = [] ∧ x.reply = .failed e := by
  induction hrun with
  | start => exact ⟨rfl, hpeeked, hwaiting, by simp⟩
  | moved _ hmove ih =>
    obtain ⟨hunder, hnone, hidle, hall⟩ := ih
    have helse := (move_of_next? hmove).elsewhere
    exact ⟨hunder, helse.peeked.trans hnone, helse.waiting hidle, hall⟩
  | arrived _ object ih => exact ih
  | recorded _ f ih => exact ih
  | waited hbefore _ hask ih =>
    obtain ⟨-, hnone, hidle, -⟩ := ih
    rw [ask_of_failure hnone hidle (hbefore.received_le hfailure).1] at hask
    cases hask
  | answered hbefore _ hask hqueue ih =>
    obtain ⟨-, hnone, hidle, hall⟩ := ih
    rw [ask_of_failure hnone hidle (hbefore.received_le hfailure).1] at hask
    cases hask
    refine ⟨rfl, hnone, hidle, ?_⟩
    rw [List.forall_mem_append, List.forall_mem_singleton]
    exact ⟨hall, List.self_eq_append_left.mp hqueue, rfl⟩
  | gaveUp _ ih => exact absurd ih.1 (by simp)

/-- Whoever moves when, whatever arrives and whatever fails: the objects that a reader was given are
a prefix of those that left the queue, and the one that is missing, if any, is peeked. Once he was
told that an object is there, he is told so again without receiving more, and is given the object
when he takes it. Once a failure is recorded, a call that begins with nothing peeked is told of it,
and so are all later ones; only a call that was under way may still receive an object. -/
theorem peeking_loses_nothing (l : Loader Object) (filter : Routing.Filter Object) (w : World)
    {under : Option Request} {history : List (Exchange Object)} {s : Stream Object}
    (hrun : Asked none ((l.lazyRun filter).run w).2 under history s) :
    received history = returned history ++ s.peeked.toList ∧
    (∀ before got between, history = before ++ ⟨.hasNext, got, .found true⟩ :: between →
      (∀ x ∈ between, x.request = .hasNext) →
      under = none ∧ (∀ x ∈ between, x = ⟨.hasNext, [], .found true⟩) ∧
        s.ask .hasNext = (s, some (.found true)) ∧
        ∃ object, received history = returned history ++ [object] ∧
          s.ask .next = ({ s with peeked := none }, some (.object (some object)))) ∧
    ∀ e, s.failure = some e → ∀ under' history' s', Asked under s under' history' s' →
      s'.failure = some e ∧ (received history').length ≤ 1 ∧
        (under = none → s.peeked = none →
          under' = none ∧ (∀ x ∈ history', x.received = [] ∧ x.reply = .failed e) ∧
            ∀ request, s'.ask request = (s', some (.failed e))) := by
  have hfresh : Faithful none [] ((l.lazyRun filter).run w).2 := by
    rw [l.run_lazyRun_eq filter w]
    cases ((l.openSource filter).run w).2 with
    | ok reading => exact ⟨rfl, by simp, fun _ => rfl⟩
    | error e => exact ⟨rfl, by simp, fun _ => rfl⟩
  have hfaithful := hrun.faithful hfresh
  refine ⟨hfaithful.kept, fun before got between hsplit hrequests => ?_,
    fun e hfailure under' history' s' hrest => ?_⟩
  · obtain ⟨hpeeked, hbetween⟩ := hrun.peeked_of_seen hfresh ⟨⟨before, got, hsplit⟩, hrequests⟩
    obtain ⟨object, hobject⟩ := Option.isSome_iff_exists.mp hpeeked
    refine ⟨hfaithful.under_eq_none hpeeked, hbetween, ask_hasNext_of_peeked hobject, object, ?_,
      ask_of_peeked hobject .next⟩
    rw [hfaithful.kept, hobject]
    rfl
  · obtain ⟨hkept, hle⟩ := hrest.received_le hfailure
    have hone := s.waiting.toNat_le
    refine ⟨hkept, by omega, fun hunder hnone => ?_⟩
    subst hunder
    obtain ⟨hunder', hpeeked', hwaiting', hall⟩ :=
      hrest.all_failed hfailure hnone (hfaithful.idle rfl)
    exact ⟨hunder', hall, ask_of_failure hpeeked' hwaiting' hkept⟩

def seenApple : Value := .object [("name", .text "apple")]

/-- The apple is seen before the pear takes its worker down. It can still be taken; then there is
only the failure. -/
theorem apple_seen_before_death : ∃ s s', Asked none
      (((spoiled 2).lazyRun .acceptAll).run stall).2 none
      [⟨.hasNext, [seenApple], .found true⟩] s ∧ s.failure = some .workerDied ∧
    s.ask .hasNext = (s, some (.found true)) ∧
    s.ask .next = (s', some (.object (some seenApple))) ∧
    ∀ request, s'.ask request = (s', some (.failed .workerDied)) := by
  have hwaits : Asked none (((spoiled 2).lazyRun .acceptAll).run stall).2 (some .hasNext) [] _ :=
    Asked.start.waited (Or.inl rfl) rfl
  have harrived := hwaits |>.moved (e := .read) rfl |>.moved (e := .collect) rfl
    |>.moved (e := .read) rfl |>.moved (e := .collect) rfl |>.moved (e := .task 0) rfl
    |>.moved (e := .task 0) rfl
  have hfound : Asked none (((spoiled 2).lazyRun .acceptAll).run stall).2 none
      [⟨.hasNext, [seenApple], .found true⟩] _ := harrived.answered (Or.inr rfl) rfl rfl
  have hdied := hfound |>.moved (e := .task 1) rfl |>.moved (e := .leave 1) rfl
    |>.moved (e := .read) rfl |>.moved (e := .collect) rfl
  obtain ⟨-, hseen, -⟩ := peeking_loses_nothing (spoiled 2) .acceptAll stall hdied
  obtain ⟨-, -, hagain, object, hreceived, htaken⟩ := hseen [] [seenApple] [] rfl (by simp)
  have hreceived : [seenApple] = [object] := hreceived
  obtain rfl := List.singleton_inj.mp hreceived
  have hgiven := hdied.answered (Or.inl rfl) htaken (List.nil_append _).symm
  obtain ⟨-, -, hfailed⟩ := peeking_loses_nothing (spoiled 2) .acceptAll stall hgiven
  obtain ⟨-, -, htold⟩ := hfailed .workerDied rfl _ _ _ .start
  exact ⟨_, _, hdied, rfl, hagain, htaken, (htold rfl rfl).2.2⟩

end Stream

end Load

end StoredObjects
