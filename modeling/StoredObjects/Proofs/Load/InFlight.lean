import StoredObjects.Proofs.Load.Deaths
import StoredObjects.Proofs.Load.Draining

/-! # Documents under way

A lazy load reads only so far ahead of its reader. Of the documents that were taken from the
reading, some are done with: they were not wanted, they failed, or their objects left the queue.
Each of the others has a place in the queue or a worker, up to one more, which the feeder converts
itself or has dropped because of a failure. When there are that many, the feeder takes no further
one, and a reader that takes nothing can let it come to that.
-/

namespace StoredObjects

namespace Load

variable {Object : Type}

/-- How many documents were taken from the reading, and what became of them. -/
structure Tally where
  taken : Nat := 0
  /-- Those that were not wanted. -/
  filtered : Nat := 0
  /-- Those whose conversion failed or died. -/
  failed : Nat := 0
  /-- Those whose objects left the queue. -/
  received : Nat := 0
  deriving DecidableEq, Repr

namespace Tally

variable (n : Tally)

def settled : Nat := n.filtered + n.failed + n.received

def underWay : Nat := n.taken - n.settled

def converted : Except Halt (Option (Loaded Object)) → Tally
  | .ok (some _) => n
  | .ok none => { n with filtered := n.filtered + 1 }
  | .error _ => { n with failed := n.failed + 1 }

def advanced (step : Step Object) : Task Object → Tally
  | .converting raw => n.converted (step.process raw)
  | .delivering _ | .leaving | .dying | .ended | .died => n

def moved (s : Stream Object) : Stream.Event → Tally
  | .read =>
    match s.reading with
    | .value _ :: _ => { n with taken := n.taken + 1 }
    | _ => n
  | .work =>
    match s.feeder with
    | .working t => n.advanced s.step t
    | _ => n
  | .task i =>
    match s.tasks[i]? with
    | some t => n.advanced s.step t
    | none => n
  | .collect | .leave _ | .abort _ | .wake => n

/-- The reader was there, and the queue is shorter by what it took out. -/
def asked (queue queue' : List Object) : Tally :=
  { n with received := n.received + (queue.length - queue'.length) }

theorem taken_advanced (step : Step Object) (t : Task Object) :
    (n.advanced step t).taken = n.taken := by
  cases t with
  | converting raw =>
    simp only [advanced]
    rcases step.process raw with _ | _ | _ <;> rfl
  | _ => rfl

end Tally

def Feeder.isOver : Feeder Object → Bool
  | reading | working _ | collecting => false
  | finishing | ended | died => true

namespace Stream

variable {s s' s₁ s₀ : Stream Object} {n : Tally} {workers capacity lost : Nat}

/-- A run in which the parts moved and the reader looked for objects and took them, and its
tally. -/
inductive Tallied (s₀ : Stream Object) : Tally → Stream Object → Prop where
  | start : Tallied s₀ {} s₀
  | moved {n : Tally} {s s' : Stream Object} {e : Event} (hrun : Tallied s₀ n s)
      (hmove : s.next? e = some s') : Tallied s₀ (n.moved s e) s'
  | looked {n : Tally} {s : Stream Object} (hrun : Tallied s₀ n s) :
      Tallied s₀ (n.asked s.queue s.hasNext.1.queue) s.hasNext.1
  | took {n : Tally} {s : Stream Object} (hrun : Tallied s₀ n s) :
      Tallied s₀ (n.asked s.queue s.next.1.queue) s.next.1

/-- A reader takes from the front of the queue, and changes nothing else but what it has seen. -/
theorem exists_hasNext (s : Stream Object) : ∃ queue peeked waiting,
    s.hasNext.1 = { s with queue, peeked, waiting } ∧ queue <:+ s.queue := by
  unfold hasNext
  split
  · exact ⟨_, _, _, rfl, List.suffix_rfl⟩
  · split
    · exact ⟨_, _, _, rfl, List.suffix_rfl⟩
    · split
      · rename_i object rest hqueue
        exact ⟨rest, _, _, rfl, hqueue ▸ List.suffix_cons object rest⟩
      · split
        · exact ⟨_, _, _, rfl, List.suffix_rfl⟩
        · exact ⟨_, _, _, rfl, List.suffix_rfl⟩

theorem exists_next (s : Stream Object) : ∃ queue peeked waiting,
    s.next.1 = { s with queue, peeked, waiting } ∧ queue <:+ s.queue := by
  obtain ⟨queue, peeked, waiting, heq, hsuffix⟩ := s.exists_hasNext
  have hnext : ∃ peeked', s.next.1 = { s.hasNext.1 with peeked := peeked' } := by
    unfold next
    split <;> rename_i hanswer <;> exact ⟨_, by rw [hanswer]⟩
  obtain ⟨peeked', hnext⟩ := hnext
  exact ⟨queue, peeked', waiting, by rw [hnext, heq], hsuffix⟩

/-! ## What was taken -/

def left (s : Stream Object) : Nat :=
  s.reading.countP fun
    | .value _ => true
    | _ => false

theorem Move.taken {e : Event} (h : Move s e s') (n : Tally) :
    (n.moved s e).taken + s'.left = n.taken + s.left := by
  cases h with
  | through hf hreading => simp [Tally.moved, Stream.left, hreading]
  | broken hf hreading => simp [Tally.moved, Stream.left, hreading]
  | halted hf hreading =>
    simp [Tally.moved, Stream.left, hreading]
    omega
  | accepted hf hreading =>
    simp [Tally.moved, Stream.left, reading_accept, hreading]
    omega
  | worked hf hadv => simp [Tally.moved, hf, Tally.taken_advanced, Stream.left, hadv.frame.1]
  | resumed => simp [Tally.moved, Stream.left, reading_collected]
  | collected => simp [Tally.moved, Stream.left, reading_collected]
  | advanced ht hadv => simp [Tally.moved, ht, Tally.taken_advanced, Stream.left, hadv.frame.1]
  | _ => rfl

/-- The documents that are missing in the reading are those that were taken. -/
theorem Tallied.taken_add (h : Tallied s₀ n s) : n.taken + s.left = s₀.left := by
  induction h with
  | start => exact Nat.zero_add _
  | moved hrun hmove ih => exact ((move_of_next? hmove).taken _).trans ih
  | @looked n s hrun ih =>
    obtain ⟨queue, peeked, waiting, heq, -⟩ := s.exists_hasNext
    rw [heq]
    exact ih
  | @took n s hrun ih =>
    obtain ⟨queue, peeked, waiting, heq, -⟩ := s.exists_next
    rw [heq]
    exact ih

/-! ## Where they are -/

def inWork (s : Stream Object) : Nat := s.parts.countP Task.isAtWork

theorem inWork_eq (s : Stream Object) :
    s.inWork = s.feeder.own.countP Task.isAtWork + s.tasks.countP Task.isAtWork := by
  simp [inWork, parts]

theorem countP_isAtWork_le (s : Stream Object) : s.tasks.countP Task.isAtWork ≤ s.live :=
  List.countP_mono_left fun t _ h => by cases t <;> first | rfl | cases h

/-- Each document that was taken is done with, in the queue or in work, or else it is one of the
`lost`, which were dropped or given up when the feeder was over. -/
structure Accounts (workers capacity : Nat) (n : Tally) (lost : Nat) (s : Stream Object) :
    Prop where
  sameWorkers : s.workers = workers
  sameCapacity : s.capacity = capacity
  divided : n.taken = n.settled + s.queue.length + s.inWork + lost
  room : s.queue.length ≤ capacity
  busy : s.live ≤ workers
  few : s.inWork + lost ≤ workers + 1
  kept : s.feeder.isOver = false → lost = 0

theorem accounts_opened (step : Step Object) (reading : List (Item Document)) :
    Accounts workers capacity {} 0 (opened step workers capacity reading) :=
  ⟨rfl, rfl, rfl, Nat.zero_le _, Nat.zero_le _, Nat.zero_le _, fun _ => rfl⟩

theorem accounts_unopened (step : Step Object) (e : Failure) :
    Accounts workers capacity {} 0 (unopened step workers capacity e) :=
  ⟨rfl, rfl, rfl, Nat.zero_le _, Nat.zero_le _, Nat.zero_le _, fun _ => rfl⟩

/-- While the feeder reads, nothing is lost, and only the tasks have documents in work. -/
theorem Accounts.inWork_of_reading (h : Accounts workers capacity n lost s)
    (hf : s.feeder = .reading) : lost = 0 ∧ s.inWork ≤ s.live := by
  refine ⟨h.kept (by simp [hf, Feeder.isOver]), ?_⟩
  simpa [inWork_eq, hf, Feeder.own] using s.countP_isAtWork_le

theorem Accounts.elsewhere (h : Accounts workers capacity n lost s)
    (reading : List (Item Document)) (failure : Option Failure) :
    Accounts workers capacity n lost { s with reading, failure } :=
  ⟨h.sameWorkers, h.sameCapacity, h.divided, h.room, h.busy, h.few, h.kept⟩

theorem Accounts.turned (h : Accounts workers capacity n lost s) (hown : s.feeder.own = [])
    {f : Feeder Object} (hf : f.own = []) (hover : s.feeder.isOver = true → f.isOver = true) :
    Accounts workers capacity n lost { s with feeder := f } := by
  have hwork : ({ s with feeder := f } : Stream Object).inWork = s.inWork := by
    simp [inWork, parts, hf, hown]
  refine ⟨h.sameWorkers, h.sameCapacity, hwork ▸ h.divided, h.room, h.busy, hwork ▸ h.few,
    fun hgoes => h.kept ?_⟩
  by_contra hs
  exact absurd (hover (by simpa using hs)) (by simpa using hgoes)

theorem Accounts.collected (h : Accounts workers capacity n lost s) :
    Accounts workers capacity n lost s.collected := by
  have hlive : s.collected.live ≤ s.live := by
    simp only [Stream.collected]
    split <;> exact List.filter_sublist.countP_le
  have hfeeder : s.collected.feeder = s.feeder := feeder_collected s
  have hwork : s.collected.inWork = s.inWork := by
    rw [inWork_eq, inWork_eq, hfeeder, countP_isAtWork_collected]
  have hqueue : s.collected.queue = s.queue := by
    simp only [Stream.collected]
    split <;> rfl
  have hsame : s.collected.workers = s.workers ∧ s.collected.capacity = s.capacity := by
    simp only [Stream.collected]
    split <;> exact ⟨rfl, rfl⟩
  exact ⟨hsame.1.trans h.sameWorkers, hsame.2.trans h.sameCapacity,
    by rw [hqueue, hwork]; exact h.divided, hqueue ▸ h.room, hlive.trans h.busy, hwork ▸ h.few,
    hfeeder ▸ h.kept⟩

/-- The feeder has room for one document beside those of the workers. -/
theorem Accounts.accepted (h : Accounts workers capacity n lost s) (hf : s.feeder = .reading)
    (raw : Document) :
    Accounts workers capacity { n with taken := n.taken + 1 } 0 (s.accept raw) := by
  obtain ⟨rfl, hwork⟩ := h.inWork_of_reading hf
  have hdivided := h.divided
  have hbusy := h.busy
  have hsame := h.sameWorkers
  unfold accept
  split
  · rename_i hfree
    have hlive : ({ s with tasks := s.tasks ++ [.converting raw], feeder := .collecting } :
        Stream Object).live = s.live + 1 := by simp [live, Task.isLive]
    have hmore : ({ s with tasks := s.tasks ++ [.converting raw], feeder := .collecting } :
        Stream Object).inWork = s.inWork + 1 := by
      simp [inWork_eq, hf, Feeder.own, Task.isAtWork]
    refine ⟨h.sameWorkers, h.sameCapacity, ?_, h.room, ?_, ?_, fun _ => rfl⟩
    · rw [hmore]
      simp only [Tally.settled] at hdivided ⊢
      omega
    · rw [hlive]
      omega
    · rw [hmore]
      omega
  · have hmore : ({ s with feeder := .working (.converting raw) } : Stream Object).inWork =
        s.inWork + 1 := by
      simp [inWork_eq, hf, Feeder.own, Task.isAtWork, Nat.add_comm]
    refine ⟨h.sameWorkers, h.sameCapacity, ?_, h.room, h.busy, ?_, fun _ => rfl⟩
    · rw [hmore]
      simp only [Tally.settled] at hdivided ⊢
      omega
    · rw [hmore]
      omega

/-- A document that is dropped is the first that is lost, and the feeder is over then. -/
theorem Accounts.dropped (h : Accounts workers capacity n lost s) (hf : s.feeder = .reading) :
    Accounts workers capacity { n with taken := n.taken + 1 } 1
      { s with feeder := .finishing } := by
  obtain ⟨rfl, hwork⟩ := h.inWork_of_reading hf
  have hdivided := h.divided
  have hbusy := h.busy
  have hsame : ({ s with feeder := .finishing } : Stream Object).inWork = s.inWork := by
    simp [inWork_eq, hf, Feeder.own]
  refine ⟨h.sameWorkers, h.sameCapacity, ?_, h.room, h.busy, ?_, by simp [Feeder.isOver]⟩
  · rw [hsame]
    simp only [Tally.settled] at hdivided ⊢
    omega
  · rw [hsame]
    omega

/-- A document that goes on is done with, moves into the queue or stays in work. -/
theorem Advance.settles {t t' : Task Object} (h : Advance s t s₁ t') (n : Tally) :
    (n.advanced s.step t).settled + s₁.queue.length + [t'].countP Task.isAtWork =
      n.settled + s.queue.length + [t].countP Task.isAtWork := by
  cases h with
  | wanted hp => simp [Tally.advanced, hp, Tally.converted, Task.isAtWork]
  | unwanted hp => simp [Tally.advanced, hp, Tally.converted, Tally.settled, Task.isAtWork]; omega
  | failed hp =>
    simp [Tally.advanced, hp, Tally.converted, Tally.settled, Task.isAtWork, record]; omega
  | died hp => simp [Tally.advanced, hp, Tally.converted, Tally.settled, Task.isAtWork]; omega
  | delivered => simp [Tally.advanced, Task.isAtWork]; omega

theorem Advance.room {t t' : Task Object} (h : Advance s t s₁ t')
    (hroom : s.queue.length ≤ s.capacity) : s₁.queue.length ≤ s.capacity := by
  cases h with
  | delivered hlt => simpa [Nat.succ_le_iff] using hlt
  | _ => exact hroom

/-- A task or the feeder goes on with its document; the feeder and the tasks are then `f` and
`ts`. -/
theorem Accounts.advanced (h : Accounts workers capacity n lost s) {t t' : Task Object}
    (hadv : Advance s t s₁ t') {f : Feeder Object} {ts : List (Task Object)}
    (hwork : (f.own ++ ts).countP Task.isAtWork + [t].countP Task.isAtWork =
      s.inWork + [t'].countP Task.isAtWork)
    (hbusy : ts.countP Task.isLive ≤ workers)
    (hover : f.isOver = false → s.feeder.isOver = false) :
    Accounts workers capacity (n.advanced s.step t) lost { s₁ with feeder := f, tasks := ts } := by
  obtain ⟨-, -, -, -, hcapacity⟩ := hadv.frame
  obtain ⟨-, hworkers⟩ := hadv.sameWork
  have hsettles := hadv.settles n
  have hdivided := h.divided
  have hfew := h.few
  have htaken := Tally.taken_advanced n s.step t
  have hone : [t].countP Task.isAtWork = 1 := by cases hadv <;> rfl
  have hle : [t'].countP Task.isAtWork ≤ 1 := List.countP_le_length
  refine ⟨hworkers.trans h.sameWorkers, hcapacity.trans h.sameCapacity, ?_, ?_, hbusy, ?_,
    fun hgoes => h.kept (hover hgoes)⟩
  · change _ = _ + s₁.queue.length + (f.own ++ ts).countP Task.isAtWork + lost
    omega
  · exact (hadv.room (h.sameCapacity ▸ h.room)).trans h.sameCapacity.le
  · change (f.own ++ ts).countP Task.isAtWork + lost ≤ workers + 1
    omega

/-- Every move accounts for the documents that it takes, drops or gives up. -/
theorem Accounts.moved (h : Accounts workers capacity n lost s) {e : Event} (hmove : Move s e s') :
    ∃ lost, Accounts workers capacity (n.moved s e) lost s' := by
  cases hmove with
  | through hf hreading =>
    have hsame : n.moved s .read = n := by simp [Tally.moved, hreading]
    rw [hsame]
    exact ⟨lost, h.turned (by simp [hf, Feeder.own]) rfl fun _ => rfl⟩
  | @broken e rest hf hreading =>
    have hsame : n.moved s .read = n := by simp [Tally.moved, hreading]
    have hturned := h.turned (f := .finishing) (by simp [hf, Feeder.own]) rfl fun _ => rfl
    rw [hsame]
    exact ⟨lost, hturned.elsewhere rest (s.record e).failure⟩
  | @halted raw rest hf hreading =>
    have htaken : n.moved s .read = { n with taken := n.taken + 1 } := by
      simp [Tally.moved, hreading]
    rw [htaken]
    exact ⟨1, (h.dropped hf).elsewhere rest s.failure⟩
  | @accepted raw rest hf hreading =>
    have htaken : n.moved s .read = { n with taken := n.taken + 1 } := by
      simp [Tally.moved, hreading]
    rw [htaken]
    exact ⟨0, (h.elsewhere rest s.failure).accepted hf raw⟩
  | @worked t t' s₁ hf hadv =>
    obtain ⟨-, -, htasks, -, -⟩ := hadv.frame
    have hsame : n.moved s .work = n.advanced s.step t := by simp [Tally.moved, hf]
    rw [hsame]
    refine ⟨lost, h.advanced hadv ?_ ?_ fun _ => by simp [hf, Feeder.isOver]⟩
    · rw [htasks, List.countP_append, countP_own_feederAfter, inWork_eq, hf]
      simp only [Feeder.own]
      omega
    · exact htasks ▸ h.busy
  | resumed hf =>
    have hown : s.collected.feeder.own = [] := by simp [feeder_collected, hf, Feeder.own]
    have hgoes : s.collected.feeder.isOver = false := by simp [feeder_collected, hf, Feeder.isOver]
    exact ⟨lost, h.collected.turned hown rfl (by simp [hgoes])⟩
  | collected => exact ⟨lost, h.collected⟩
  | closed hf => exact ⟨lost, h.turned (by simp [hf, Feeder.own]) rfl fun _ => rfl⟩
  | @advanced i t t' s₁ ht hadv =>
    obtain ⟨-, hfeeder, htasks, -, -⟩ := hadv.frame
    have hsame : n.moved s (.task i) = n.advanced s.step t := by simp [Tally.moved, ht]
    have hset := countP_set_add (p := Task.isAtWork) t' ht
    rw [hsame]
    refine ⟨lost, h.advanced (f := s₁.feeder) hadv ?_ ?_ fun hgoes => hfeeder ▸ hgoes⟩
    · simp only [htasks, hfeeder, List.countP_append, List.countP_singleton, inWork_eq]
      omega
    · rw [htasks]
      exact (live_set_le _ ht fun _ => hadv.isLive).trans h.busy
  | @left i t t' ht hleft =>
    have hidle : t.isAtWork = false ∧ t'.isAtWork = false ∧ t'.isLive = false := by
      cases t <;> cases hleft <;> exact ⟨rfl, rfl, rfl⟩
    have hbusy := live_set_le t' ht (by simp [hidle.2.2])
    have hset := countP_set_add (p := Task.isAtWork) t' ht
    simp only [hidle.1, hidle.2.1, Bool.false_eq_true, if_false, Nat.add_zero] at hset
    have hwork : ({ s with tasks := s.tasks.set i t' } : Stream Object).inWork = s.inWork := by
      simp only [inWork_eq, hset]
    exact ⟨lost, h.sameWorkers, h.sameCapacity, hwork ▸ h.divided, h.room, hbusy.trans h.busy,
      hwork ▸ h.few, h.kept⟩
  | @aborted i t hf ht hlive =>
    have hbusy := live_set_le .ended ht (by simp [Task.isLive])
    have hset := countP_set_add (p := Task.isAtWork) Task.ended ht
    have hidle : (Task.ended : Task Object).isAtWork = false := rfl
    simp only [hidle, Bool.false_eq_true, if_false, Nat.add_zero] at hset
    have hdivided := h.divided
    have hfew := h.few
    simp only [inWork_eq] at hdivided hfew
    -- a task that is leaving has nothing left to give up
    refine ⟨lost + if t.isAtWork then 1 else 0, h.sameWorkers, h.sameCapacity, ?_, h.room,
      hbusy.trans h.busy, ?_, by simp [hf, Feeder.isOver]⟩
    · simp only [inWork_eq, Tally.moved]
      omega
    · simp only [inWork_eq]
      omega
  | woke => exact ⟨lost, h.sameWorkers, h.sameCapacity, h.divided, h.room, h.busy, h.few, h.kept⟩

theorem Accounts.asked (h : Accounts workers capacity n lost s) {queue : List Object}
    (hsuffix : queue <:+ s.queue) (peeked : Option Object) (waiting : Bool) :
    Accounts workers capacity (n.asked s.queue queue) lost { s with queue, peeked, waiting } := by
  have hdivided := h.divided
  have hle := hsuffix.length_le
  refine ⟨h.sameWorkers, h.sameCapacity, ?_, hle.trans h.room, h.busy, h.few, h.kept⟩
  have hsame : ({ s with queue, peeked, waiting } : Stream Object).inWork = s.inWork := rfl
  rw [hsame]
  simp only [Tally.asked, Tally.settled] at hdivided ⊢
  omega

theorem Tallied.accounts (h : Tallied s₀ n s) (hstart : Accounts workers capacity {} 0 s₀) :
    ∃ lost, Accounts workers capacity n lost s := by
  induction h with
  | start => exact ⟨0, hstart⟩
  | moved hrun hmove ih =>
    obtain ⟨lost, hs⟩ := ih
    exact hs.moved (move_of_next? hmove)
  | @looked n s hrun ih =>
    obtain ⟨lost, hs⟩ := ih
    obtain ⟨queue, peeked, waiting, heq, hsuffix⟩ := s.exists_hasNext
    rw [heq]
    exact ⟨lost, hs.asked hsuffix peeked waiting⟩
  | @took n s hrun ih =>
    obtain ⟨lost, hs⟩ := ih
    obtain ⟨queue, peeked, waiting, heq, hsuffix⟩ := s.exists_next
    rw [heq]
    exact ⟨lost, hs.asked hsuffix peeked waiting⟩

/-- A feeder that reads has room for the document that it is about to take. -/
theorem Accounts.underWay_le (h : Accounts workers capacity n lost s) :
    n.settled ≤ n.taken ∧ n.underWay ≤ capacity + workers + 1 ∧
      (s.feeder = .reading → n.underWay ≤ capacity + workers) := by
  have hdivided := h.divided
  have hroom := h.room
  have hfew := h.few
  simp only [Tally.underWay]
  refine ⟨by omega, by omega, fun hf => ?_⟩
  obtain ⟨rfl, hwork⟩ := h.inWork_of_reading hf
  have hbusy := h.busy
  omega

/-! ## A reader that takes nothing -/

section Ahead

variable {step : Step Object} {held docs : List Document} {raw : Document}
  {rest : List (Item Document)} {queue : List Object} {loaded : Loaded Object}

theorem countP_isLive_converting (raws : List Document) :
    (raws.map fun raw => (.converting raw : Task Object)).countP Task.isLive = raws.length := by
  simp [List.countP_map, Function.comp_def, Task.isLive]

/-- A task takes a document, and its object finds a place in the queue. -/
theorem Tallied.delivered (h : Tallied s₀ n
      (pool step workers capacity (.value raw :: rest) .reading [] queue))
    (hworkers : 0 < workers) (hroom : queue.length < capacity)
    (hp : step.process raw = .ok (some loaded)) :
    Tallied s₀ { n with taken := n.taken + 1 }
      (pool step workers capacity rest .reading [] (queue ++ [loaded.object])) := by
  have hread : Tallied s₀ { n with taken := n.taken + 1 }
      (pool step workers capacity rest .collecting [.converting raw] queue) :=
    h.moved (read_of_free [] hworkers)
  have hconvert : (pool step workers capacity rest .collecting [.converting raw] queue).next?
      (.task 0) = some (pool step workers capacity rest .collecting
        [.delivering loaded.object] queue) := convert_last_wanted [] hp
  have hconverted := hread.moved hconvert
  have hsame : Tally.moved { n with taken := n.taken + 1 }
      (pool step workers capacity rest .collecting [.converting raw] queue) (.task 0) =
        { n with taken := n.taken + 1 } := by
    simp [Tally.moved, pool, Tally.advanced, hp, Tally.converted]
  rw [hsame] at hconverted
  have hended : Tallied s₀ { n with taken := n.taken + 1 } (pool step workers capacity rest
      .collecting [.ended] (queue ++ [loaded.object])) :=
    (hconverted.moved (deliver_last [] hroom)).moved (leave_last [])
  exact hended.moved (collect_pool rfl)

/-- Documents that are wanted are taken as long as there are places for their objects. -/
theorem Tallied.filled (h : Tallied s₀ n
      (pool step workers capacity (docs.map .value ++ rest) .reading [] queue))
    (hworkers : 0 < workers) (hroom : queue.length + docs.length ≤ capacity)
    (hwanted : ∀ raw ∈ docs, ∃ loaded, step.process raw = .ok (some loaded)) :
    ∃ queue', Tallied s₀ { n with taken := n.taken + docs.length }
      (pool step workers capacity rest .reading [] queue') := by
  induction docs generalizing n queue with
  | nil => exact ⟨queue, h⟩
  | cons raw docs ih =>
    rw [List.length_cons] at hroom
    obtain ⟨loaded, hp⟩ := hwanted raw List.mem_cons_self
    have hnext := h.delivered hworkers (by omega) hp
    obtain ⟨queue', hfilled⟩ := ih hnext
      (by rw [List.length_append, List.length_singleton]; omega)
      fun raw hraw => hwanted raw (List.mem_cons_of_mem _ hraw)
    refine ⟨queue', ?_⟩
    rw [List.length_cons, Nat.add_comm docs.length, ← Nat.add_assoc]
    exact hfilled

theorem Tallied.occupied (h : Tallied s₀ n (pool step workers capacity
      (docs.map .value ++ rest) .reading (held.map .converting) queue))
    (hfree : held.length + docs.length ≤ workers) :
    Tallied s₀ { n with taken := n.taken + docs.length } (pool step workers capacity
      rest .reading ((held ++ docs).map .converting) queue) := by
  induction docs generalizing n held with
  | nil => simpa using h
  | cons raw docs ih =>
    rw [List.length_cons] at hfree
    have hgoes : ∀ t ∈ (held ++ [raw]).map fun raw => (.converting raw : Task Object),
        t.isOver = false := by
      intro t ht
      obtain ⟨raw', -, rfl⟩ := List.mem_map.mp ht
      rfl
    have hread : Tallied s₀ { n with taken := n.taken + 1 } (pool step workers capacity
        (docs.map .value ++ rest) .collecting ((held ++ [raw]).map .converting) queue) := by
      rw [List.map_append]
      exact h.moved (read_of_free _ (by rw [countP_isLive_converting]; omega))
    have hnext : Tallied s₀ { n with taken := n.taken + 1 } (pool step workers capacity
        (docs.map .value ++ rest) .reading ((held ++ [raw]).map .converting) queue) :=
      hread.moved (collect_of_held hgoes)
    have hall := ih hnext (by rw [List.length_append, List.length_singleton]; omega)
    rw [List.length_cons, Nat.add_comm docs.length, ← Nat.add_assoc]
    simpa using hall

/-- The queue fills up, then the workers are busy, and the feeder keeps one more document. -/
theorem exists_tallied_ahead (hworkers : 0 < workers)
    (hdocs : docs.length = capacity + workers + 1)
    (hwanted : ∀ raw ∈ docs, ∃ loaded, step.process raw = .ok (some loaded)) :
    ∃ s, Tallied (opened step workers capacity (docs.map .value ++ rest))
      { taken := docs.length } s := by
  obtain ⟨front, docs, rfl, hfront⟩ : ∃ front back, docs = front ++ back ∧
      front.length = capacity :=
    ⟨docs.take capacity, docs.drop capacity, (List.take_append_drop ..).symm, by
      rw [List.length_take]; omega⟩
  rw [List.length_append] at hdocs
  obtain ⟨held, docs, rfl, hheld⟩ : ∃ front back, docs = front ++ back ∧ front.length = workers :=
    ⟨docs.take workers, docs.drop workers, (List.take_append_drop ..).symm, by
      rw [List.length_take]; omega⟩
  rw [List.length_append] at hdocs
  obtain ⟨raw, rfl⟩ : ∃ raw, docs = [raw] := List.length_eq_one_iff.mp (by omega)
  have hstart : Tallied (opened step workers capacity
      ((front ++ (held ++ [raw])).map .value ++ rest)) {} (pool step workers capacity
        (front.map .value ++ (held.map .value ++ .value raw :: rest)) .reading [] []) := by
    simpa [opened, pool] using Tallied.start
  obtain ⟨queue, hfilled⟩ := hstart.filled hworkers (by simp [hfront])
    fun raw hraw => hwanted raw (List.mem_append_left _ hraw)
  have hfilled : Tallied _ _ (pool step workers capacity (held.map .value ++ .value raw :: rest)
      .reading (([] : List Document).map .converting) queue) := hfilled
  have hheldAll := hfilled.occupied (by simp [hheld])
  have hlast := hheldAll.moved (read_of_full (by
    rw [countP_isLive_converting, List.nil_append, hheld]))
  have hlength : (front ++ (held ++ [raw])).length = 0 + front.length + held.length + 1 := by
    rw [List.length_append, List.length_append, List.length_singleton]
    omega
  rw [hlength]
  exact ⟨_, hlast⟩

end Ahead

end Stream

theorem Loader.accounts_lazyRun (l : Loader Object) (filter : Routing.Filter Object) (w : World) :
    Stream.Accounts (max l.settings.workers 1) (max l.settings.outputCapacity 1) {} 0
      ((l.lazyRun filter).run w).2 := by
  rw [l.run_lazyRun_eq filter w]
  cases ((l.openSource filter).run w).2 with
  | ok reading => exact Stream.accounts_opened _ reading
  | error e => exact Stream.accounts_unopened _ e

/-- One document for each place in the queue, one for each worker, and one more. -/
def Loader.readAhead (l : Loader Object) : Nat :=
  max l.settings.outputCapacity 1 + max l.settings.workers 1 + 1

/-- Whatever is stored, and whoever moves when: of the documents that a lazy load took from its
reading, all but `readAhead` are filtered out, failed or were received by the reader, and while
there are that many, the feeder takes nothing. If so many are wanted, it can come to that before a
reader takes anything. -/
theorem documents_under_way_bounded (l : Loader Object) (filter : Routing.Filter Object)
    (w : World) :
    (∀ n s, ((l.lazyRun filter).run w).2.Tallied n s →
      n.taken + s.left = ((l.lazyRun filter).run w).2.left ∧ n.settled ≤ n.taken ∧
        n.underWay ≤ l.readAhead ∧ (n.underWay = l.readAhead → s.next? .read = none)) ∧
    ∀ (docs : List Document) (rest : List (Item Document)),
      ((l.openSource filter).run w).2 = .ok (docs.map .value ++ rest) →
      docs.length = l.readAhead →
      (∀ raw ∈ docs, ∃ loaded, (l.step filter).process raw = .ok (some loaded)) →
      ∃ s, ((l.lazyRun filter).run w).2.Tallied { taken := docs.length } s := by
  refine ⟨fun n s h => ?_, fun docs rest hopen hdocs hwanted => ?_⟩
  · obtain ⟨lost, haccounts⟩ := h.accounts (l.accounts_lazyRun filter w)
    obtain ⟨hle, hbounded, hreads⟩ := haccounts.underWay_le
    refine ⟨h.taken_add, hle, hbounded, fun hfull => ?_⟩
    have hbusy : s.feeder ≠ .reading := by
      intro hf
      have hroom := hreads hf
      rw [hfull, Loader.readAhead] at hroom
      omega
    cases hf : s.feeder with
    | reading => exact absurd hf hbusy
    | _ => simp [Stream.next?, hf]
  · rw [l.run_lazyRun_eq filter w, hopen]
    exact Stream.exists_tallied_ahead (by omega) hdocs hwanted

/-! One worker and one place in the queue, for three fruits. -/

def narrow : Loader Value := { sourced with settings := { workers := 1, outputCapacity := 1 } }

def threeFruits : World :=
  ⟨TextMap.empty.insert "fruits"
    { collection := (((Collection.empty "fruits").put "\"apple\"" (grownIn "Peru" "apple")).put
        "\"fig\"" (grownIn "Peru" "fig")).put "\"pear\"" (grownIn "Chile" "pear")
      supply := fun _ => "" }⟩

/-- The apple is in the queue, the worker has the fig and the feeder the pear; nothing more is
taken. -/
theorem three_fruits_under_way : ∃ s,
    ((narrow.lazyRun .acceptAll).run threeFruits).2.Tallied { taken := 3 } s ∧
      s.queue = [spanish "apple"] ∧ s.next? .read = none := by
  obtain ⟨hbounded, -⟩ := documents_under_way_bounded narrow .acceptAll threeFruits
  have hstart : ((narrow.lazyRun .acceptAll).run threeFruits).2.Tallied {} _ := .start
  have hrun := hstart |>.moved (e := .read) rfl |>.moved (e := .collect) rfl
    |>.moved (e := .task 0) rfl |>.moved (e := .task 0) rfl |>.moved (e := .leave 0) rfl
    |>.moved (e := .read) rfl |>.moved (e := .collect) rfl |>.moved (e := .read) rfl
  obtain ⟨-, -, -, hstops⟩ := hbounded _ _ hrun
  exact ⟨_, hrun, rfl, hstops rfl⟩

end Load

end StoredObjects
