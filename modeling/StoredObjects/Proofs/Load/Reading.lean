import StoredObjects.Proofs.Load.Streaming

/-! # Readers of lazy loads

A reader who asks on is answered, since some part can move as long as the queue is empty and not
closed. If no conversion dies, the answers are the objects of all documents, each once, or a failure
of one of them. A load is therefore sure to come to its objects exactly when every document can be
converted: among the runs are those in which the documents are converted one after another.
-/

namespace StoredObjects

namespace Load

variable {Object : Type}

/-- Some result is possible, and every one that is comes to these objects, in some order. -/
def Settles (possible : Except Failure (List Object) → Prop) (objects : List Object) : Prop :=
  (∃ r, possible r) ∧ ∀ r, possible r → ∃ found, r = .ok found ∧ found.Perm objects

theorem Settles.perm {possible : Except Failure (List Object) → Prop}
    {objects objects' : List Object} (h : Settles possible objects)
    (h' : Settles possible objects') : objects.Perm objects' := by
  obtain ⟨⟨r, hr⟩, hall⟩ := h
  obtain ⟨found, rfl, hperm⟩ := hall r hr
  obtain ⟨found', heq, hperm'⟩ := h'.2 _ hr
  obtain rfl := Except.ok.inj heq
  exact hperm.symm.trans hperm'

def Task.weight : Task Object → Nat
  | converting _ => 6
  | delivering _ => 4
  | leaving | dying => 2
  | ended | died => 1

def Feeder.weight : Feeder Object → Nat
  | reading => 2
  | working task => 3 + task.weight
  | collecting => 3
  | finishing => 1
  | ended | died => 0

namespace Stream

variable {s s' s₁ : Stream Object} {step : Step Object} {docs : List Document}
  {taken : Multiset Object}

def weight (s : Stream Object) : Nat :=
  11 * s.reading.length + (s.tasks.map Task.weight).sum + s.queue.length + s.feeder.weight +
    s.peeked.elim 0 fun _ => 1

/-- A reader reads a stream to its end or up to a failure, while the parts move. -/
inductive Collects : Stream Object → Except Failure (List Object) → Prop where
  | ended {s s' : Stream Object} (hnext : s.next = (s', some (.ok none))) : Collects s (.ok [])
  | failed {s s' : Stream Object} {e : Failure} (hnext : s.next = (s', some (.error e))) :
      Collects s (.error e)
  | taken {s s' : Stream Object} {object : Object} {r : Except Failure (List Object)}
      (hnext : s.next = (s', some (.ok (some object)))) (hrest : Collects s' r) :
      Collects s (r.map fun objects => object :: objects)
  | waited {s s' : Stream Object} {r : Except Failure (List Object)}
      (hnext : s.next = (s', none)) (hrest : Collects s' r) : Collects s r
  | moved {s s' : Stream Object} {r : Except Failure (List Object)} {e : Event}
      (hmove : s.next? e = some s') (hrest : Collects s' r) : Collects s r

inductive CollectsSound : Stream Object → Except Failure (List Object) → Prop where
  | ended {s s' : Stream Object} (hnext : s.next = (s', some (.ok none))) : CollectsSound s (.ok [])
  | failed {s s' : Stream Object} {e : Failure} (hnext : s.next = (s', some (.error e))) :
      CollectsSound s (.error e)
  | taken {s s' : Stream Object} {object : Object} {r : Except Failure (List Object)}
      (hnext : s.next = (s', some (.ok (some object)))) (hrest : CollectsSound s' r) :
      CollectsSound s (r.map fun objects => object :: objects)
  | waited {s s' : Stream Object} {r : Except Failure (List Object)}
      (hnext : s.next = (s', none)) (hrest : CollectsSound s' r) : CollectsSound s r
  | moved {s s' : Stream Object} {r : Except Failure (List Object)} {e : Event}
      (hmove : s.next? e = some s') (hsound : s'.Sound) (hrest : CollectsSound s' r) :
      CollectsSound s r

theorem CollectsSound.collects (h : s.CollectsSound r) : s.Collects r := by
  induction h with
  | ended hnext => exact .ended hnext
  | failed hnext => exact .failed hnext
  | taken hnext hrest ih => exact .taken hnext ih
  | waited hnext hrest ih => exact .waited hnext ih
  | moved hmove hsound hrest ih => exact .moved hmove ih

/-! ## The answers -/

inductive Reads (s : Stream Object) :
    Stream Object → Option (Except Failure (Option Object)) → Prop where
  | seen {object : Object} (hpeeked : s.peeked = some object) :
      Reads s { s with peeked := none } (some (.ok (some object)))
  | queued {object : Object} {rest : List Object} (hpeeked : s.peeked = none)
      (hqueue : s.queue = object :: rest) :
      Reads s { s with queue := rest, peeked := none, waiting := false } (some (.ok (some object)))
  | failed {e : Failure} {b : Bool} (hfailure : s.failure = some e) :
      Reads s { s with waiting := b } (some (.error e))
  | ended (hpeeked : s.peeked = none) (hqueue : s.queue = []) (hclosed : s.isClosed = true)
      (hfailure : s.failure = none) : Reads s { s with waiting := false } (some (.ok none))
  | waits (hpeeked : s.peeked = none) (hqueue : s.queue = []) (hclosed : s.isClosed = false) :
      Reads s { s with waiting := true } none

theorem next_of_failure (hpeeked : s.peeked = none) (hwaiting : s.waiting = false) {e : Failure}
    (hfailure : s.failure = some e) : s.next = (s, some (.error e)) := by
  simp [next, hasNext, hpeeked, hwaiting, hfailure]

section Looked

variable (hpeeked : s.peeked = none) (hlooked : s.waiting = true ∨ s.failure = none)
include hpeeked hlooked

theorem next_of_queue {object : Object} {rest : List Object} (hqueue : s.queue = object :: rest) :
    s.next = ({ s with queue := rest, peeked := none, waiting := false },
      some (.ok (some object))) := by
  rcases hlooked with h | h <;> simp [next, hasNext, hpeeked, h, hqueue]

theorem next_of_closed (hqueue : s.queue = []) (hclosed : s.isClosed = true) :
    s.next = ({ s with waiting := false }, some (s.failure.elim (.ok none) .error)) := by
  rcases hlooked with h | h
  · cases hfailure : s.failure <;> simp [next, hasNext, hpeeked, h, hqueue, hclosed, hfailure]
  · simp [next, hasNext, hpeeked, h, hqueue, hclosed]

theorem next_of_open (hqueue : s.queue = []) (hclosed : s.isClosed = false) :
    s.next = ({ s with waiting := true }, none) := by
  rcases hlooked with h | h <;> simp [next, hasNext, hpeeked, h, hqueue, hclosed]

end Looked

theorem reads_next (s : Stream Object) : Reads s s.next.1 s.next.2 := by
  cases hpeeked : s.peeked with
  | some object =>
    have hnext : s.next = ({ s with peeked := none }, some (.ok (some object))) := by
      simp [next, hasNext, hpeeked]
    rw [hnext]
    exact .seen hpeeked
  | none =>
    by_cases hlooked : s.waiting = true ∨ s.failure = none
    · cases hqueue : s.queue with
      | cons object rest =>
        rw [next_of_queue hpeeked hlooked hqueue]
        exact .queued hpeeked hqueue
      | nil =>
        cases hclosed : s.isClosed with
        | false =>
          rw [next_of_open hpeeked hlooked hqueue hclosed]
          exact .waits hpeeked hqueue hclosed
        | true =>
          have hnext := next_of_closed hpeeked hlooked hqueue hclosed
          rcases Option.eq_none_or_eq_some s.failure with hfailure | ⟨e, hfailure⟩
          · have hanswer : s.failure.elim (.ok none) .error =
                (.ok none : Except Failure (Option Object)) := by rw [hfailure]; rfl
            rw [hnext, hanswer]
            exact .ended hpeeked hqueue hclosed hfailure
          · have hanswer : s.failure.elim (.ok none) .error =
                (.error e : Except Failure (Option Object)) := by rw [hfailure]; rfl
            rw [hnext, hanswer]
            exact .failed hfailure
    · obtain ⟨hwaiting, hfailure⟩ := not_or.mp hlooked
      obtain ⟨e, he⟩ := Option.ne_none_iff_exists'.mp hfailure
      rw [next_of_failure hpeeked (Bool.eq_false_of_not_eq_true hwaiting) he]
      exact Reads.failed (b := s.waiting) he

theorem reads_of_next {answer : Option (Except Failure (Option Object))}
    (hnext : s.next = (s', answer)) : Reads s s' answer := by
  have hreads := reads_next s
  rwa [hnext] at hreads

theorem Serves.tasks_eq_nil (h : Serves step docs taken s) (hclosed : s.isClosed = true) :
    s.feeder = .ended ∧ s.tasks = [] := by
  cases hf : s.feeder with
  | ended => exact ⟨rfl, h.idle hf⟩
  | died => exact absurd hf h.feeder
  | _ => simp [isClosed, hf] at hclosed

theorem Serves.took (h : Serves step docs taken s) {object : Object} {queue : List Object}
    {b : Bool} (hobject : s.peeked = some object ∧ queue = s.queue ∨
      s.peeked = none ∧ s.queue = object :: queue) :
    Serves step docs ({object} + taken)
      { s with queue := queue, peeked := none, waiting := b } := by
  refine ⟨h.sameStep, h.capacity, h.values, h.sources, h.sound, h.feeder, h.own, h.through, h.idle,
    h.failed, fun hn => ?_, h.decided⟩
  rw [← h.objects hn]
  rcases hobject with ⟨hpeeked, rfl⟩ | ⟨hpeeked, hqueue⟩
  · simp only [promise, parts, hpeeked, Option.elim]
    abel
  · simp only [promise, parts, hpeeked, hqueue, Option.elim, ← Multiset.cons_coe,
      ← Multiset.singleton_add]
    abel

theorem Serves.took_of_next (h : Serves step docs taken s) {object : Object}
    (hnext : s.next = (s', some (.ok (some object)))) :
    Serves step docs ({object} + taken) s' := by
  cases reads_of_next hnext with
  | seen hpeeked => exact h.took (Or.inl ⟨hpeeked, rfl⟩)
  | queued hpeeked hqueue => exact h.took (Or.inr ⟨hpeeked, hqueue⟩)

theorem Serves.waits_of_next (h : Serves step docs taken s) (hnext : s.next = (s', none)) :
    Serves step docs taken s' := by
  cases reads_of_next hnext with
  | waits => exact h.waiting true

/-- What a reading came to, for a reader who had taken `taken` before. -/
def Fulfils (step : Step Object) (docs : List Document) (taken : Multiset Object) :
    Except Failure (List Object) → Prop
  | .ok objects => (∀ raw ∈ docs, ∃ r, step.process raw = .ok r) ∧
      taken + ↑objects = (docs.map step.promise).sum
  | .error e => ∃ raw ∈ docs, step.process raw = .error (.failed e)

/-- A reader comes to the end only when every document was converted, and has then met their
objects; a failure that is met is that of a document. -/
theorem Serves.fulfils_of_sound {r : Except Failure (List Object)} (hcollects : s.CollectsSound r)
    (h : Serves step docs taken s) : Fulfils step docs taken r := by
  induction hcollects generalizing taken with
  | @ended s s' hnext =>
    cases reads_of_next hnext with
    | ended hpeeked hqueue hclosed hfailure =>
      obtain ⟨hf, htasks⟩ := h.tasks_eq_nil hclosed
      have hreading : s.reading = [] := h.through (Or.inr hf) hfailure
      have hparts : s.parts = [] := by simp [parts, hf, htasks, Feeder.own]
      refine ⟨fun raw hraw => ?_, ?_⟩
      · refine (h.decided hfailure raw hraw).resolve_left fun hpend => ?_
        simp [Pending, hreading, hparts] at hpend
      · rw [← h.objects hfailure]
        simp [promise, hpeeked, hqueue, hparts, hreading]
  | @failed s s' e hnext =>
    cases reads_of_next hnext with
    | failed hfailure => exact h.failed e hfailure
  | @taken s s' object r hnext hrest ih =>
    have hend := ih (h.took_of_next hnext)
    cases r with
    | error e => exact hend
    | ok objects =>
      refine ⟨hend.1, ?_⟩
      rw [← hend.2, ← Multiset.cons_coe, ← Multiset.singleton_add]
      abel
  | waited hnext hrest ih => exact ih (h.waits_of_next hnext)
  | moved hmove hsound hrest ih => exact ih (h.moved_of_sound hmove hsound)

section Live

variable {r : Except Failure (List Object)} (hlive : ∀ raw ∈ docs, step.process raw ≠ .error .died)
include hlive

theorem Serves.collectsSound (hcollects : s.Collects r) (h : Serves step docs taken s) :
    s.CollectsSound r := by
  induction hcollects generalizing taken with
  | ended hnext => exact .ended hnext
  | failed hnext => exact .failed hnext
  | taken hnext hrest ih => exact .taken hnext (ih (h.took_of_next hnext))
  | waited hnext hrest ih => exact .waited hnext (ih (h.waits_of_next hnext))
  | moved hmove hrest ih =>
    have hs' := h.moved hlive hmove
    exact .moved hmove hs'.isSound (ih hs')

theorem Serves.fulfils (hcollects : s.Collects r) (h : Serves step docs taken s) :
    Fulfils step docs taken r := h.fulfils_of_sound (h.collectsSound hlive hcollects)

end Live

/-! ## A reader is always answered -/

theorem Advance.weight_lt {t t' : Task Object} (h : Advance s t s₁ t') :
    s₁.queue.length + t'.weight < s.queue.length + t.weight := by
  cases h <;> simp [record, Task.weight]

theorem exists_advance {t : Task Object} (hwork : t.isAtWork = true)
    (hroom : s.queue.length < s.capacity) : ∃ s₁ t', s.advance? t = some (s₁, t') := by
  cases t with
  | converting raw =>
    simp only [advance?]
    split <;> exact ⟨_, _, rfl⟩
  | delivering object => exact ⟨_, _, if_pos hroom⟩
  | _ => cases hwork

theorem Task.isAtWork_or_left {t : Task Object} (h : t.isOver = false) :
    t.isAtWork = true ∨ ∃ t', t.left? = some t' := by
  cases t with
  | leaving => exact Or.inr ⟨_, rfl⟩
  | dying => exact Or.inr ⟨_, rfl⟩
  | ended => cases h
  | died => cases h
  | _ => exact Or.inl rfl

theorem weight_feederAfter_le (t : Task Object) : (feederAfter t).weight ≤ 3 + t.weight := by
  cases t <;> simp [feederAfter, Feeder.weight, Task.weight]

theorem weight_feeder (s : Stream Object) (f : Feeder Object) :
    ({ s with feeder := f } : Stream Object).weight + s.feeder.weight = s.weight + f.weight := by
  simp only [weight]
  omega

theorem weight_accept (s : Stream Object) (raw : Document) :
    (s.accept raw).weight + s.feeder.weight = s.weight + 9 := by
  unfold accept
  split
  · simp [weight, Feeder.weight, Task.weight]
    omega
  · exact weight_feeder s (.working (.converting raw))

theorem weight_set {i : Nat} {t : Task Object} (ht : s.tasks[i]? = some t) (t' : Task Object) :
    ({ s with tasks := s.tasks.set i t' } : Stream Object).weight + t.weight =
      s.weight + t'.weight := by
  have hsum := sum_map_set Task.weight t' ht
  simp only [weight]
  omega

theorem weight_of_isOver {t : Task Object} (h : t.isOver = true) : t.weight = 1 := by
  cases t with
  | ended => rfl
  | died => rfl
  | _ => cases h

theorem sum_weight_filter_not_isOver (tasks : List (Task Object)) :
    (tasks.map Task.weight).sum = ((tasks.filter fun t => !t.isOver).map Task.weight).sum +
      tasks.countP Task.isOver := by
  induction tasks with
  | nil => rfl
  | cons t tasks ih =>
    cases hover : t.isOver with
    | true =>
      simp [hover, ih, weight_of_isOver hover]
      omega
    | false =>
      simp [hover, ih]
      omega

theorem weight_collected (s : Stream Object) :
    s.collected.weight + s.tasks.countP Task.isOver = s.weight := by
  have hsum := sum_weight_filter_not_isOver s.tasks
  simp only [Stream.collected]
  split <;> simp only [weight, record, hsum] <;> omega

theorem Move.weight_lt {e : Event} (h : Move s e s') (he : e ≠ .wake) : s'.weight < s.weight := by
  cases h with
  | through hf =>
    have hw := weight_feeder s .finishing
    simp only [hf, Feeder.weight] at hw
    omega
  | broken hf hreading =>
    simp only [weight, record, hf, hreading, Feeder.weight, List.length_cons]
    omega
  | halted hf hreading =>
    simp only [weight, hf, hreading, Feeder.weight, List.length_cons]
    omega
  | @accepted raw rest hf hreading =>
    have hlt : ({ s with reading := rest } : Stream Object).weight + 11 = s.weight := by
      simp only [weight, hreading, List.length_cons]
      omega
    have hw := weight_accept { s with reading := rest } raw
    omega
  | @worked t t' s₁ hf hadv =>
    have hlt := hadv.weight_lt
    obtain ⟨hreading, -, htasks, hpeeked, -⟩ := hadv.frame
    have hle := weight_feederAfter_le t'
    have hwork : (Feeder.working t).weight = 3 + t.weight := rfl
    simp only [weight, hf, hreading, htasks, hpeeked, hwork]
    omega
  | resumed hf =>
    have hw := weight_collected s
    have hread := weight_feeder s.collected .reading
    have hfeeder : s.collected.feeder.weight = 3 := by rw [feeder_collected, hf]; rfl
    have hnext : (Feeder.reading : Feeder Object).weight = 2 := rfl
    dsimp only
    omega
  | collected hf hover =>
    have hw := weight_collected s
    have hpos : 0 < s.tasks.countP Task.isOver := List.countP_pos_iff.mpr hover
    omega
  | closed hf =>
    have hended := weight_feeder s .ended
    simp only [hf, Feeder.weight] at hended
    omega
  | @advanced i t t' s₁ ht hadv =>
    have hlt := hadv.weight_lt
    obtain ⟨hreading, hfeeder, htasks, hpeeked, -⟩ := hadv.frame
    have hw := weight_set (s := s₁) (htasks ▸ ht) t'
    simp only [weight, hreading, hfeeder, htasks, hpeeked] at hw ⊢
    omega
  | @left i t t' ht hleft =>
    have hw := weight_set ht t'
    have hlt : t'.weight < t.weight := by
      cases t with
      | leaving =>
        cases hleft
        exact Nat.lt_add_one 1
      | dying =>
        cases hleft
        exact Nat.lt_add_one 1
      | _ => cases hleft
    omega
  | @aborted i t hf ht hlive =>
    have hw := weight_set ht .ended
    have hlt : (Task.ended : Task Object).weight < t.weight := by
      cases t with
      | converting => simp [Task.weight]
      | delivering => simp [Task.weight]
      | leaving => simp [Task.weight]
      | _ => cases hlive
    omega
  | woke => exact absurd rfl he

theorem weight_lt_of_next? {e : Event} (h : s.next? e = some s') (he : e ≠ .wake) :
    s'.weight < s.weight := (move_of_next? h).weight_lt he

/-- No part waits for what never comes. -/
structure Fit (s : Stream Object) : Prop where
  capacity : 0 < s.capacity
  readable : .stalled ∉ s.reading
  own : ∀ t, s.feeder = .working t → t.isAtWork = true
  idle : s.feeder = .ended → s.tasks = []

theorem Serves.fit (h : Serves step docs taken s) : Fit s := by
  refine ⟨h.capacity, fun hstalled => ?_, h.own, h.idle⟩
  obtain ⟨raw, -, heq⟩ := h.values _ hstalled
  cases heq

theorem fit_opened {workers capacity : Nat} {reading : List (Item Document)}
    (hcapacity : 0 < capacity) (hreadable : .stalled ∉ reading) :
    Fit (opened step workers capacity reading) :=
  ⟨hcapacity, hreadable, by simp [opened], by simp [opened]⟩

theorem Fit.collected (h : Fit s) : Fit s.collected := by
  simp only [Stream.collected]
  split <;> exact ⟨h.capacity, h.readable, h.own, fun hf => by simp [record, h.idle hf]⟩

theorem Fit.moved (h : Fit s) {e : Event} (hmove : Move s e s') : Fit s' := by
  have hrest : ∀ {item rest}, s.reading = item :: rest → .stalled ∉ rest := by
    intro item rest hreading hmem
    exact h.readable (by simp [hreading, hmem])
  cases hmove with
  | through => exact ⟨h.capacity, h.readable, by simp, by simp⟩
  | broken _ hreading => exact ⟨h.capacity, hrest hreading, by simp, by simp⟩
  | halted _ hreading => exact ⟨h.capacity, hrest hreading, by simp, by simp⟩
  | accepted _ hreading =>
    unfold accept
    split
    · exact ⟨h.capacity, hrest hreading, by simp, by simp⟩
    · refine ⟨h.capacity, hrest hreading, fun t ht => ?_, by simp⟩
      cases ht
      rfl
  | @worked t t' s₁ hf hadv =>
    obtain ⟨hreading, -, -, -, hcapacity⟩ := hadv.frame
    refine ⟨hcapacity ▸ h.capacity, hreading ▸ h.readable, fun t ht => ?_, fun hf => ?_⟩
    · cases t' <;> cases ht <;> rfl
    · cases t' <;> cases hf
  | resumed => exact ⟨h.collected.capacity, h.collected.readable, by simp, by simp⟩
  | collected => exact h.collected
  | closed _ htasks => exact ⟨h.capacity, h.readable, by simp, fun _ => htasks⟩
  | advanced ht hadv =>
    obtain ⟨hreading, hfeeder, htasks, -, hcapacity⟩ := hadv.frame
    refine ⟨hcapacity ▸ h.capacity, hreading ▸ h.readable, hfeeder ▸ h.own, fun hf => ?_⟩
    simp [htasks, h.idle (hfeeder ▸ hf)]
  | left => exact ⟨h.capacity, h.readable, h.own, fun hf => by simp [h.idle hf]⟩
  | aborted hf => exact ⟨h.capacity, h.readable, by simp [hf], by simp [hf]⟩
  | woke => exact ⟨h.capacity, h.readable, h.own, h.idle⟩

/-- While the queue is empty and more can come into it, some part can move. -/
theorem Fit.exists_move (h : Fit s) (hqueue : s.queue = []) (hclosed : s.isClosed = false) :
    ∃ e s', s.next? e = some s' ∧ e ≠ .wake := by
  have hroom : s.queue.length < s.capacity := by
    simpa [hqueue] using h.capacity
  cases hf : s.feeder with
  | reading =>
    refine ⟨.read, ?_⟩
    cases hreading : s.reading with
    | nil => exact ⟨{ s with feeder := .finishing }, by simp [next?, hf, read?, hreading], by simp⟩
    | cons item rest =>
      cases item with
      | stalled => exact absurd hreading fun heq => h.readable (by simp [heq])
      | failed e =>
        exact ⟨{ s.record e with reading := rest, feeder := .finishing },
          by simp [next?, hf, read?, hreading], by simp⟩
      | value raw =>
        by_cases hfailed : s.failure.isSome = true
        · exact ⟨{ s with reading := rest, feeder := .finishing },
            by simp [next?, hf, read?, hreading, hfailed], by simp⟩
        · exact ⟨({ s with reading := rest } : Stream Object).accept raw,
            by simp [next?, hf, read?, hreading, hfailed], by simp⟩
  | working t =>
    obtain ⟨s₁, t', hadv⟩ := exists_advance (h.own t hf) hroom
    exact ⟨.work, { s₁ with feeder := feederAfter t' }, by simp [next?, hf, hadv], by simp⟩
  | collecting =>
    exact ⟨.collect, { s.collected with feeder := .reading }, by simp [next?, hf], by simp⟩
  | finishing =>
    -- the first task can go on, as the queue is empty, or leave, or is forgotten
    cases htasks : s.tasks with
    | nil => exact ⟨.collect, { s with feeder := .ended }, by simp [next?, hf, htasks], by simp⟩
    | cons t tasks =>
      by_cases hany : s.tasks.any Task.isOver = true
      · exact ⟨.collect, s.collected, by simp [next?, hf, htasks ▸ hany, htasks], by simp⟩
      · have hgoes : t.isOver = false := by
          simpa using List.any_eq_false.mp (by simpa using hany) t (by simp [htasks])
        rcases Task.isAtWork_or_left hgoes with hwork | ⟨t', hleft⟩
        · obtain ⟨s₁, t', hadv⟩ := exists_advance hwork hroom
          exact ⟨.task 0, { s₁ with tasks := s₁.tasks.set 0 t' }, by simp [next?, htasks, hadv],
            by simp⟩
        · exact ⟨.leave 0, { s with tasks := s.tasks.set 0 t' }, by simp [next?, htasks, hleft],
            by simp⟩
  | ended => simp [isClosed, hf, live, h.idle hf] at hclosed
  | died =>
    -- the tasks are given up one after another
    obtain ⟨t, ht, hlive⟩ : ∃ t ∈ s.tasks, t.isLive = true := by
      simpa [isClosed, hf, live, List.countP_eq_zero] using hclosed
    obtain ⟨i, hi⟩ := List.mem_iff_getElem?.mp ht
    exact ⟨.abort i, { s with tasks := s.tasks.set i .ended }, by simp [next?, hf, hi, hlive],
      by simp⟩

/-- Every reader can read on until he has the last object or meets a failure. -/
theorem Fit.exists_collects (h : Fit s) : ∃ r, s.Collects r := by
  -- every object that is taken, and the move made for a reader who waits, lower the weight
  induction hn : s.weight using Nat.strong_induction_on generalizing s with
  | _ n ih =>
    subst hn
    cases hanswer : s.next with
    | mk s' answer =>
      cases reads_of_next hanswer with
      | @seen object hpeeked =>
        have hlt : ({ s with peeked := none } : Stream Object).weight < s.weight := by
          simp [weight, hpeeked]
        have hseen : Fit { s with peeked := none } := ⟨h.capacity, h.readable, h.own, h.idle⟩
        obtain ⟨r, hr⟩ := ih _ hlt hseen rfl
        exact ⟨_, .taken hanswer hr⟩
      | @queued object rest hpeeked hqueue =>
        have hlt : ({ s with queue := rest, peeked := none, waiting := false } :
            Stream Object).weight < s.weight := by
          simp [weight, hpeeked, hqueue]
        have hrest : Fit { s with queue := rest, peeked := none, waiting := false } :=
          ⟨h.capacity, h.readable, h.own, h.idle⟩
        obtain ⟨r, hr⟩ := ih _ hlt hrest rfl
        exact ⟨_, .taken hanswer hr⟩
      | failed hfailure => exact ⟨_, .failed hanswer⟩
      | ended => exact ⟨_, .ended hanswer⟩
      | waits hpeeked hqueue hclosed =>
        have hwaits : Fit { s with waiting := true } := ⟨h.capacity, h.readable, h.own, h.idle⟩
        obtain ⟨e, s₂, hmove, he⟩ := hwaits.exists_move hqueue hclosed
        have hlt : s₂.weight < s.weight :=
          weight_lt_of_next? (s := { s with waiting := true }) hmove he
        obtain ⟨r, hr⟩ := ih _ hlt (hwaits.moved (move_of_next? hmove)) rfl
        exact ⟨r, .waited hanswer (.moved hmove hr)⟩

/-! ## Tasks that are held up -/

def pool (step : Step Object) (workers capacity : Nat) (reading : List (Item Document))
    (feeder : Feeder Object) (tasks : List (Task Object)) (queue : List Object) : Stream Object :=
  { step, workers, capacity, reading, feeder, tasks, queue }

section Pool

variable {workers capacity : Nat} {held : List (Task Object)} {raw : Document}
  {rest : List (Item Document)} {feeder : Feeder Object} {queue : List Object} {object : Object}

theorem read_of_free (held : List (Task Object)) (hfree : held.countP Task.isLive < workers) :
    (pool step workers capacity (.value raw :: rest) .reading held queue).next? .read =
      some (pool step workers capacity rest .collecting (held ++ [.converting raw]) queue) := by
  simp [next?, read?, accept, pool, live, hfree]

theorem read_of_full (hfull : workers ≤ held.countP Task.isLive) :
    (pool step workers capacity (.value raw :: rest) .reading held queue).next? .read =
      some (pool step workers capacity rest (.working (.converting raw)) held queue) := by
  simp [next?, read?, accept, pool, live, Nat.not_lt_of_le hfull]

theorem collect_pool {tasks : List (Task Object)} (hnone : tasks.any Task.hasDied = false) :
    (pool step workers capacity rest .collecting tasks queue).next? .collect =
      some (pool step workers capacity rest .reading (tasks.filter fun t => !t.isOver) queue) := by
  simp only [next?, Stream.collected, pool, hnone]
  rfl

section Held

variable (hheld : ∀ t ∈ held, t.isOver = false)
include hheld

theorem any_hasDied_of_held : held.any Task.hasDied = false := by
  refine List.any_eq_false.mpr fun t ht hdied => ?_
  have hgoes := hheld t ht
  cases t with
  | died => cases hgoes
  | _ => cases hdied

theorem filter_of_held : (held.filter fun t => !t.isOver) = held :=
  List.filter_eq_self.mpr fun t ht => by simp [hheld t ht]

theorem collect_of_held :
    (pool step workers capacity rest .collecting held queue).next? .collect =
      some (pool step workers capacity rest .reading held queue) := by
  rw [collect_pool (any_hasDied_of_held hheld), filter_of_held hheld]

theorem collect_of_ended :
    (pool step workers capacity rest .collecting (held ++ [.ended]) queue).next? .collect =
      some (pool step workers capacity rest .reading held queue) := by
  have hnone : (held ++ [Task.ended]).any Task.hasDied = false := by
    rw [List.any_append, any_hasDied_of_held hheld]
    rfl
  rw [collect_pool hnone, List.filter_append, filter_of_held hheld]
  exact congrArg (fun tasks => some (pool step workers capacity rest .reading tasks queue))
    (List.append_nil held)

end Held

theorem leave_last (held : List (Task Object)) :
    (pool step workers capacity rest feeder (held ++ [.leaving]) queue).next?
      (.leave held.length) =
      some (pool step workers capacity rest feeder (held ++ [.ended]) queue) := by
  simp [next?, pool, Task.left?]

theorem convert_last_unwanted (held : List (Task Object)) (hp : step.process raw = .ok none) :
    (pool step workers capacity rest feeder (held ++ [.converting raw]) queue).next?
      (.task held.length) =
      some (pool step workers capacity rest feeder (held ++ [.leaving]) queue) := by
  simp [next?, advance?, pool, hp]

theorem convert_last_wanted (held : List (Task Object)) {loaded : Loaded Object}
    (hp : step.process raw = .ok (some loaded)) :
    (pool step workers capacity rest feeder (held ++ [.converting raw]) queue).next?
      (.task held.length) =
      some (pool step workers capacity rest feeder (held ++ [.delivering loaded.object])
        queue) := by
  simp [next?, advance?, pool, hp]

theorem deliver_last (held : List (Task Object)) (hroom : queue.length < capacity) :
    (pool step workers capacity rest feeder (held ++ [.delivering object]) queue).next?
      (.task held.length) =
      some (pool step workers capacity rest feeder (held ++ [.leaving]) (queue ++ [object])) := by
  simp [next?, advance?, pool, hroom]

theorem next_pool : (pool step workers capacity rest .reading held [object]).next =
    (pool step workers capacity rest .reading held [], some (.ok (some object))) := by
  simp [next, hasNext, pool]

/-- Whoever converts it, a document that can be converted passes the tasks that are held up. -/
theorem collects_of_passed {r : Except Failure (List Object)}
    (h : (pool step workers capacity rest .reading held []).Collects r) (hcapacity : 0 < capacity)
    (hheld : ∀ t ∈ held, t.isOver = false) {loaded? : Option (Loaded Object)}
    (hp : step.process raw = .ok loaded?) :
    (pool step workers capacity (.value raw :: rest) .reading held []).Collects
      (r.map fun objects => loaded?.toList.map Loaded.object ++ objects) := by
  have hput : ∀ loaded : Loaded Object,
      (pool step workers capacity rest .reading held [loaded.object]).Collects
        (r.map fun objects => loaded.object :: objects) := fun _ => .taken next_pool h
  rcases Nat.lt_or_ge (held.countP Task.isLive) workers with hfree | hfull
  · refine .moved (read_of_free held hfree) ?_
    cases loaded? with
    | none =>
      have hsame : (r.map fun objects => [] ++ objects) = r := by cases r <;> rfl
      refine .moved (convert_last_unwanted held hp) (.moved (leave_last held) ?_)
      exact .moved (collect_of_ended hheld) (hsame.symm ▸ h)
    | some loaded =>
      refine .moved (convert_last_wanted held hp) (.moved (deliver_last held hcapacity) ?_)
      exact .moved (leave_last held) (.moved (collect_of_ended hheld) (hput loaded))
  · refine .moved (read_of_full hfull) ?_
    cases loaded? with
    | none =>
      have hsame : (r.map fun objects => [] ++ objects) = r := by cases r <;> rfl
      have hwork : (pool step workers capacity rest (.working (.converting raw)) held []).next?
          .work = some (pool step workers capacity rest .collecting held []) := by
        simp [next?, advance?, pool, hp, feederAfter]
      exact .moved hwork (.moved (collect_of_held hheld) (hsame.symm ▸ h))
    | some loaded =>
      have hwork : (pool step workers capacity rest (.working (.converting raw)) held []).next?
          .work = some (pool step workers capacity rest (.working (.delivering loaded.object))
            held []) := by
        simp [next?, advance?, pool, hp, feederAfter]
      have hdeliver : (pool step workers capacity rest (.working (.delivering loaded.object))
          held []).next? .work =
            some (pool step workers capacity rest .collecting held [loaded.object]) := by
        simp [next?, advance?, pool, hcapacity, feederAfter]
      exact .moved hwork (.moved hdeliver (.moved (collect_of_held hheld) (hput loaded)))

end Pool

/-! ## Documents that fail -/

/-- When the documents are converted one after another, the first that fails or dies is met. -/
theorem exists_collects_error {workers capacity : Nat} (hworkers : 0 < workers)
    (hcapacity : 0 < capacity) (hdocs : ¬ ∀ raw ∈ docs, ∃ r, step.process raw = .ok r) :
    ∃ e, (start step workers capacity docs).Collects (.error e) := by
  induction docs with
  | nil => simp at hdocs
  | cons raw docs ih =>
    have hread : (start step workers capacity (raw :: docs)).next? .read =
        some (pool step workers capacity (docs.map .value) .collecting [.converting raw] []) :=
      read_of_free [] hworkers
    cases hp : step.process raw with
    | ok r =>
      have hrest : ¬ ∀ raw ∈ docs, ∃ r, step.process raw = .ok r := by
        intro hrest
        refine hdocs fun raw' hraw' => ?_
        rcases List.mem_cons.mp hraw' with rfl | hraw'
        · exact ⟨r, hp⟩
        · exact hrest raw' hraw'
      obtain ⟨e, he⟩ := ih hrest
      have he : (pool step workers capacity (docs.map .value) .reading [] []).Collects
          (.error e) := he
      exact ⟨e, collects_of_passed he hcapacity (by simp) hp⟩
    | error halt =>
      cases halt with
      | failed e =>
        have htask : (pool step workers capacity (docs.map .value) .collecting [.converting raw]
            []).next? (.task 0) = some { pool step workers capacity (docs.map .value) .collecting
              [.leaving] [] with failure := some e } := by
          simp [next?, advance?, record, pool, hp]
        exact ⟨e, .moved hread (.moved htask (.failed (next_of_failure rfl rfl rfl)))⟩
      | died =>
        have htask : (pool step workers capacity (docs.map .value) .collecting [.converting raw]
            []).next? (.task 0) = some (pool step workers capacity (docs.map .value) .collecting
              [.dying] []) := by
          simp [next?, advance?, pool, hp]
        have hleave : (pool step workers capacity (docs.map .value) .collecting [.dying] []).next?
            (.leave 0) = some (pool step workers capacity (docs.map .value) .collecting
              [.died] []) := by
          simp [next?, pool, Task.left?]
        have hcollect : (pool step workers capacity (docs.map .value) .collecting [.died] []).next?
            .collect = some { pool step workers capacity (docs.map .value) .reading [] [] with
              failure := some .workerDied } := by
          simp [next?, collected, record, pool, Task.isOver, Task.hasDied]
        have hfailed := next_of_failure (s := { pool step workers capacity (docs.map .value)
          .reading [] [] with failure := some Failure.workerDied }) rfl rfl rfl
        exact ⟨_, .moved hread (.moved htask (.moved hleave (.moved hcollect (.failed hfailed))))⟩

/-- A load is sure to come to its objects exactly when every document can be converted. -/
theorem settles_start_iff {workers capacity : Nat} (hworkers : 0 < workers)
    (hcapacity : 0 < capacity) {objects : List Object} :
    Settles (start step workers capacity docs).Collects objects ↔
      (∀ raw ∈ docs, ∃ r, step.process raw = .ok r) ∧
        (docs.filterMap step.object?).Perm objects := by
  have hserves : Serves step docs 0 (start step workers capacity docs) := serves_start hcapacity
  have hlive : (∀ raw ∈ docs, ∃ r, step.process raw = .ok r) →
      ∀ raw ∈ docs, step.process raw ≠ .error .died := by
    intro hdocs raw hraw hdied
    obtain ⟨r, hr⟩ := hdocs raw hraw
    rw [hr] at hdied
    cases hdied
  have hfound : ∀ found, Fulfils step docs 0 (.ok found) →
      found.Perm (docs.filterMap step.object?) := by
    rintro found ⟨-, hsum⟩
    rw [zero_add, Step.sum_promise] at hsum
    exact Multiset.coe_eq_coe.mp hsum
  constructor
  · rintro ⟨⟨r, hr⟩, hall⟩
    by_cases hdocs : ∀ raw ∈ docs, ∃ r, step.process raw = .ok r
    · obtain ⟨found, rfl, hperm⟩ := hall r hr
      exact ⟨hdocs, (hfound found (hserves.fulfils (hlive hdocs) hr)).symm.trans hperm⟩
    · obtain ⟨e, he⟩ := exists_collects_error hworkers hcapacity hdocs
      obtain ⟨found, heq, -⟩ := hall _ he
      cases heq
  · rintro ⟨hdocs, hperm⟩
    refine ⟨hserves.fit.exists_collects, fun r hr => ?_⟩
    have hend := hserves.fulfils (hlive hdocs) hr
    cases r with
    | ok found => exact ⟨found, rfl, (hfound found hend).trans hperm⟩
    | error e =>
      obtain ⟨raw, hraw, hfailed⟩ := hend
      obtain ⟨r, hr⟩ := hdocs raw hraw
      rw [hr] at hfailed
      cases hfailed

end Stream

end Load

end StoredObjects
