import Mathlib.Algebra.Order.Group.Multiset
import StoredObjects.Load.Stream
import StoredObjects.Proofs.Lists
import StoredObjects.Proofs.Load.Conversion

/-! # Lazy loads

Whatever part moves next, the objects that a reader has taken and those that are still promised are
those of the documents that were to be read. They are promised by the documents in the reading and
in work, by the tasks that wait for a place in the queue, and by the queue. This holds as long as no
conversion dies, and until a failure is recorded.
-/

namespace StoredObjects

namespace Load

variable {Object : Type}

/-- What a document contributes: its object, if it is wanted. -/
def Step.promise (step : Step Object) (raw : Document) : Multiset Object :=
  (step.object? raw).elim 0 fun object => {object}

theorem Step.promise_of_some {step : Step Object} {raw : Document} {loaded : Loaded Object}
    (h : step.process raw = .ok (some loaded)) : step.promise raw = {loaded.object} := by
  simp [promise, object?, outcome_of_ok h]

theorem Step.promise_of_none {step : Step Object} {raw : Document}
    (h : step.process raw = .ok none) : step.promise raw = 0 := by
  simp [promise, object?, outcome_of_ok h]

theorem Step.sum_promise (step : Step Object) (raws : List Document) :
    (raws.map step.promise).sum = ↑(raws.filterMap step.object?) := by
  induction raws with
  | nil => rfl
  | cons raw raws ih =>
    rw [List.map_cons, List.sum_cons, ih, List.filterMap_cons, promise]
    cases step.object? raw <;> rfl

namespace Task

def promise (step : Step Object) : Task Object → Multiset Object
  | converting raw => step.promise raw
  | delivering object => {object}
  | leaving | dying | ended | died => 0

/-- There is something left to do for the document. -/
def isAtWork : Task Object → Bool
  | converting _ | delivering _ => true
  | leaving | dying | ended | died => false

def isDead : Task Object → Bool
  | dying | died => true
  | converting _ | delivering _ | leaving | ended => false

end Task

namespace Feeder

def own : Feeder Object → List (Task Object)
  | working task => [task]
  | _ => []

end Feeder

def promiseOf (step : Step Object) : Item Document → Multiset Object
  | .value raw => step.promise raw
  | _ => 0

section Sums

variable {M : Type} [AddCommMonoid M]

theorem sum_map_filter_not_isOver {g : Task Object → M} {tasks : List (Task Object)}
    (hg : ∀ t ∈ tasks, t.isOver = true → g t = 0) :
    ((tasks.filter fun t => !t.isOver).map g).sum = (tasks.map g).sum := by
  induction tasks with
  | nil => rfl
  | cons t tasks ih =>
    have ih := ih fun u hu => hg u (List.mem_cons_of_mem _ hu)
    cases ht : t.isOver with
    | true => simp [ht, ih, hg t List.mem_cons_self ht]
    | false => simp [ht, ih]

end Sums

namespace Stream

variable {s s' s₁ : Stream Object} {step : Step Object} {docs : List Document}
  {taken : Multiset Object}

/-- All documents in work, that of the feeder first. -/
def parts (s : Stream Object) : List (Task Object) := s.feeder.own ++ s.tasks

def promise (s : Stream Object) : Multiset Object :=
  s.peeked.elim 0 (fun object => {object}) + ↑s.queue + (s.parts.map (Task.promise s.step)).sum +
    (s.reading.map (promiseOf s.step)).sum

def Pending (s : Stream Object) (raw : Document) : Prop :=
  .value raw ∈ s.reading ∨ .converting raw ∈ s.parts

inductive Advance (s : Stream Object) : Task Object → Stream Object → Task Object → Prop where
  | wanted {raw : Document} {loaded : Loaded Object}
      (h : s.step.process raw = .ok (some loaded)) :
      Advance s (.converting raw) s (.delivering loaded.object)
  | unwanted {raw : Document} (h : s.step.process raw = .ok none) :
      Advance s (.converting raw) s .leaving
  | failed {raw : Document} {e : Failure} (h : s.step.process raw = .error (.failed e)) :
      Advance s (.converting raw) (s.record e) .leaving
  | died {raw : Document} (h : s.step.process raw = .error .died) :
      Advance s (.converting raw) s .dying
  | delivered {object : Object} (h : s.queue.length < s.capacity) :
      Advance s (.delivering object) { s with queue := s.queue ++ [object] } .leaving

theorem advance_of_advance? {t t' : Task Object} (h : s.advance? t = some (s₁, t')) :
    Advance s t s₁ t' := by
  cases t with
  | converting raw =>
    simp only [advance?] at h
    split at h
    · rename_i loaded hp
      cases h
      exact .wanted hp
    · rename_i hp
      cases h
      exact .unwanted hp
    · rename_i e hp
      cases h
      exact .failed hp
    · rename_i hp
      cases h
      exact .died hp
  | delivering object =>
    simp only [advance?] at h
    split at h
    · rename_i hroom
      cases h
      exact .delivered hroom
    · cases h
  | _ => cases h

theorem Advance.frame {t t' : Task Object} (h : Advance s t s₁ t') :
    s₁.reading = s.reading ∧ s₁.feeder = s.feeder ∧ s₁.tasks = s.tasks ∧ s₁.peeked = s.peeked ∧
      s₁.capacity = s.capacity := by
  cases h <;> exact ⟨rfl, rfl, rfl, rfl, rfl⟩

theorem Advance.sameWork {t t' : Task Object} (h : Advance s t s₁ t') :
    s₁.step = s.step ∧ s₁.workers = s.workers := by
  cases h <;> exact ⟨rfl, rfl⟩

/-- The feeder is over with its document, or waits for a place in the queue. -/
theorem Advance.feederAfter_cases {t t' : Task Object} (h : Advance s t s₁ t')
    (halive : t' ≠ .dying) : t' = .leaving ∧ feederAfter t' = .collecting ∨
      ∃ object, t' = .delivering object ∧ feederAfter t' = .working t' := by
  cases h with
  | wanted => exact Or.inr ⟨_, rfl, rfl⟩
  | died => exact absurd rfl halive
  | _ => exact Or.inl ⟨rfl, rfl⟩

inductive Move (s : Stream Object) : Event → Stream Object → Prop where
  | through (hf : s.feeder = .reading) (hreading : s.reading = []) :
      Move s .read { s with feeder := .finishing }
  | broken {e : Failure} {rest : List (Item Document)} (hf : s.feeder = .reading)
      (hreading : s.reading = .failed e :: rest) :
      Move s .read { s.record e with reading := rest, feeder := .finishing }
  /-- A failure was recorded meanwhile. -/
  | halted {raw : Document} {rest : List (Item Document)} (hf : s.feeder = .reading)
      (hreading : s.reading = .value raw :: rest) (hfailed : s.failure.isSome = true) :
      Move s .read { s with reading := rest, feeder := .finishing }
  | accepted {raw : Document} {rest : List (Item Document)} (hf : s.feeder = .reading)
      (hreading : s.reading = .value raw :: rest) (hnone : s.failure = none) :
      Move s .read (({ s with reading := rest } : Stream Object).accept raw)
  | worked {t t' : Task Object} {s₁ : Stream Object} (hf : s.feeder = .working t)
      (hadv : Advance s t s₁ t') : Move s .work { s₁ with feeder := feederAfter t' }
  | resumed (hf : s.feeder = .collecting) : Move s .collect { s.collected with feeder := .reading }
  | collected (hf : s.feeder = .finishing) (hover : ∃ t ∈ s.tasks, t.isOver = true) :
      Move s .collect s.collected
  | closed (hf : s.feeder = .finishing) (htasks : s.tasks = []) :
      Move s .collect { s with feeder := .ended }
  | advanced {i : Nat} {t t' : Task Object} {s₁ : Stream Object} (ht : s.tasks[i]? = some t)
      (hadv : Advance s t s₁ t') : Move s (.task i) { s₁ with tasks := s₁.tasks.set i t' }
  | left {i : Nat} {t t' : Task Object} (ht : s.tasks[i]? = some t) (hleft : t.left? = some t') :
      Move s (.leave i) { s with tasks := s.tasks.set i t' }
  | aborted {i : Nat} {t : Task Object} (hf : s.feeder = .died) (ht : s.tasks[i]? = some t)
      (hlive : t.isLive = true) : Move s (.abort i) { s with tasks := s.tasks.set i .ended }
  | woke : Move s .wake { s with waiting := false }

theorem move_of_next? {e : Event} (h : s.next? e = some s') : Move s e s' := by
  cases e with
  | read =>
    simp only [next?] at h
    split at h
    · rename_i hf
      unfold read? at h
      split at h
      · cases h
        exact .through hf ‹_›
      · cases h
      · cases h
        exact .broken hf ‹_›
      · rename_i raw rest hreading
        simp only at h
        split at h
        · cases h
          exact .halted hf hreading ‹_›
        · rename_i hnone
          cases h
          exact .accepted hf hreading (by simpa using hnone)
    · cases h
  | work =>
    simp only [next?] at h
    split at h
    · obtain ⟨⟨s₁, t'⟩, hadv, rfl⟩ := Option.map_eq_some_iff.mp h
      exact .worked ‹_› (advance_of_advance? hadv)
    · cases h
  | collect =>
    simp only [next?] at h
    split at h
    · cases h
      exact .resumed ‹_›
    · rename_i hf
      split at h
      · rename_i hempty
        cases h
        exact .closed hf (List.isEmpty_iff.mp hempty)
      · split at h
        · rename_i hany
          cases h
          exact .collected hf (List.any_eq_true.mp hany)
        · cases h
    · cases h
  | task i =>
    simp only [next?] at h
    split at h
    · obtain ⟨⟨s₁, t'⟩, hadv, rfl⟩ := Option.map_eq_some_iff.mp h
      exact .advanced ‹_› (advance_of_advance? hadv)
    · cases h
  | leave i =>
    obtain ⟨t', hbind, rfl⟩ := Option.map_eq_some_iff.mp h
    obtain ⟨t, ht, hleft⟩ := Option.bind_eq_some_iff.mp hbind
    exact .left ht hleft
  | abort i =>
    simp only [next?] at h
    split at h
    · rename_i hf ht
      split at h
      · rename_i hlive
        cases h
        exact .aborted hf ht hlive
      · cases h
    · cases h
  | wake =>
    simp only [next?] at h
    split at h
    · cases h
      exact .woke
    · cases h

/-! ## The invariant -/

/-- The documents `docs` are being read, none of which dies; `taken` are the objects so far. -/
structure Serves (step : Step Object) (docs : List Document) (taken : Multiset Object)
    (s : Stream Object) : Prop where
  sameStep : s.step = step
  capacity : 0 < s.capacity
  values : ∀ item ∈ s.reading, ∃ raw ∈ docs, item = .value raw
  sources : ∀ raw, .converting raw ∈ s.parts → raw ∈ docs
  sound : ∀ t ∈ s.parts, t.isDead = false
  feeder : s.feeder ≠ .died
  own : ∀ t, s.feeder = .working t → t.isAtWork = true
  through : s.feeder = .finishing ∨ s.feeder = .ended → s.failure = none → s.reading = []
  idle : s.feeder = .ended → s.tasks = []
  failed : ∀ e, s.failure = some e → ∃ raw ∈ docs, step.process raw = .error (.failed e)
  objects : s.failure = none → taken + s.promise = (docs.map step.promise).sum
  decided : s.failure = none → ∀ raw ∈ docs, s.Pending raw ∨ ∃ r, step.process raw = .ok r

def opened (step : Step Object) (workers capacity : Nat) (reading : List (Item Document)) :
    Stream Object :=
  { step, workers, capacity, reading }

def start (step : Step Object) (workers capacity : Nat) (docs : List Document) : Stream Object :=
  { step, workers, capacity, reading := docs.map .value }

def unopened (step : Step Object) (workers capacity : Nat) (e : Failure) : Stream Object :=
  { step, workers, capacity, reading := [], failure := some e, feeder := .ended }

theorem serves_start {workers capacity : Nat} (hcapacity : 0 < capacity) :
    Serves step docs 0 (start step workers capacity docs) := by
  have hparts : (start step workers capacity docs).parts = [] := rfl
  refine ⟨rfl, hcapacity, ?_, by simp [hparts], by simp [hparts], by simp [start], by simp [start],
    by simp [start], by simp [start], by simp [start], fun _ => ?_,
    fun _ raw hraw => Or.inl (Or.inl (List.mem_map.mpr ⟨raw, hraw, rfl⟩))⟩
  · intro item hitem
    obtain ⟨raw, hraw, rfl⟩ := List.mem_map.mp hitem
    exact ⟨raw, hraw, rfl⟩
  · have hcompose : promiseOf step ∘ Item.value = step.promise := rfl
    simp only [promise, hparts]
    simp [start, hcompose]

theorem Serves.waiting (h : Serves step docs taken s) (b : Bool) :
    Serves step docs taken { s with waiting := b } :=
  ⟨h.sameStep, h.capacity, h.values, h.sources, h.sound, h.feeder, h.own, h.through, h.idle,
    h.failed, h.objects, h.decided⟩

theorem failure_record (s : Stream Object) (e : Failure) : (s.record e).failure ≠ none := by
  simp only [record]
  cases s.failure <;> simp

theorem failed_record (h : ∀ e, s.failure = some e → ∃ raw ∈ docs, step.process raw =
    .error (.failed e)) {e : Failure} (he : ∃ raw ∈ docs, step.process raw = .error (.failed e)) :
    ∀ f, (s.record e).failure = some f → ∃ raw ∈ docs, step.process raw = .error (.failed f) := by
  intro f hf
  simp only [record] at hf
  cases hs : s.failure with
  | none =>
    rw [hs] at hf
    obtain rfl : e = f := by simpa using hf
    exact he
  | some g =>
    rw [hs] at hf
    obtain rfl : g = f := by simpa using hf
    exact h g hs

/-- One of the documents in work goes on, and the feeder and its tasks are then `f` and `ts`. -/
theorem Serves.advanced (h : Serves step docs taken s) {t t' : Task Object}
    (halive : t' ≠ .dying) (hadv : Advance s t s₁ t')
    (ht : t ∈ s.parts) {f : Feeder Object} {ts : List (Task Object)}
    (hsum : ∀ g : Task Object → Multiset Object, g .leaving = 0 →
      ((f.own ++ ts).map g).sum + g t = (s.parts.map g).sum + g t')
    (hnew : ∀ u ∈ f.own ++ ts, u ∈ s.parts ∨ u = t')
    (hold : ∀ u ∈ s.parts, u ∈ f.own ++ ts ∨ u = t)
    (hfeeder : f ≠ .died) (hown : ∀ u, f = .working u → u.isAtWork = true)
    (hthrough : f = .finishing ∨ f = .ended → s.feeder = .finishing ∨ s.feeder = .ended)
    (hover : f = .ended → ts = []) :
    Serves step docs taken { s₁ with feeder := f, tasks := ts } := by
  have hsum := hsum (Task.promise s.step) rfl
  have hsource : ∀ raw, t' ≠ .converting raw → .converting raw ∈ f.own ++ ts → raw ∈ docs := by
    intro raw hne hmem
    rcases hnew _ hmem with hmem | heq
    · exact h.sources raw hmem
    · exact absurd heq.symm hne
  have hsound : t'.isDead = false → ∀ u ∈ f.own ++ ts, u.isDead = false := by
    intro hdead u hu
    rcases hnew _ hu with hu | rfl
    · exact h.sound u hu
    · exact hdead
  -- documents other than that of `t` wait as before
  have hdecided : (∀ raw, t = .converting raw → ∃ r, step.process raw = .ok r) →
      s.failure = none → ∀ raw ∈ docs, (.value raw ∈ s.reading ∨ .converting raw ∈ f.own ++ ts) ∨
        ∃ r, step.process raw = .ok r := by
    intro hdone hnone raw hraw
    rcases h.decided hnone raw hraw with (hread | hwork) | hok
    · exact Or.inl (Or.inl hread)
    · rcases hold _ hwork with hmem | heq
      · exact Or.inl (Or.inr hmem)
      · exact Or.inr (hdone raw heq.symm)
    · exact Or.inr hok
  cases hadv with
  | @wanted raw loaded hp =>
    rw [h.sameStep] at hp
    refine ⟨h.sameStep, h.capacity, h.values, fun raw' => hsource raw' (by simp),
      hsound rfl, hfeeder, hown, fun hf => h.through (hthrough hf), hover, h.failed,
      fun hnone => ?_, hdecided fun raw' heq => ?_⟩
    · rw [← h.objects hnone]
      simp only [Task.promise, h.sameStep, Step.promise_of_some hp] at hsum
      simp only [promise, parts, h.sameStep]
      rw [add_right_cancel hsum]
      rfl
    · cases heq
      exact ⟨_, hp⟩
  | @unwanted raw hp =>
    rw [h.sameStep] at hp
    refine ⟨h.sameStep, h.capacity, h.values, fun raw' => hsource raw' (by simp),
      hsound rfl, hfeeder, hown, fun hf => h.through (hthrough hf), hover, h.failed,
      fun hnone => ?_, hdecided fun raw' heq => ?_⟩
    · rw [← h.objects hnone]
      simp only [Task.promise, h.sameStep, Step.promise_of_none hp] at hsum
      simp only [promise, parts, h.sameStep]
      rw [add_right_cancel hsum]
      rfl
    · cases heq
      exact ⟨_, hp⟩
  | @failed raw e hp =>
    rw [h.sameStep] at hp
    refine ⟨h.sameStep, h.capacity, h.values, fun raw' => hsource raw' (by simp),
      hsound rfl, hfeeder, hown, fun _ hnone => absurd hnone (failure_record s e), hover,
      failed_record h.failed ⟨raw, h.sources raw ht, hp⟩,
      fun hnone => absurd hnone (failure_record s e),
      fun hnone => absurd hnone (failure_record s e)⟩
  | died => exact absurd rfl halive
  | @delivered object hroom =>
    refine ⟨h.sameStep, h.capacity, h.values, fun raw' => hsource raw' (by simp),
      hsound rfl, hfeeder, hown, fun hf => h.through (hthrough hf), hover, h.failed,
      fun hnone => ?_, hdecided fun raw' heq => ?_⟩
    · -- the object moves from the task into the queue
      rw [← h.objects hnone]
      simp only [Task.promise, add_zero, parts] at hsum
      simp only [promise, parts]
      rw [← hsum, ← Multiset.coe_add, Multiset.coe_singleton]
      abel
    · cases heq

theorem mem_set_or {tasks : List (Task Object)} {i : Nat} {t t' u : Task Object}
    (ht : tasks[i]? = some t) (hu : u ∈ tasks) : u ∈ tasks.set i t' ∨ u = t := by
  obtain ⟨j, hj, rfl⟩ := List.getElem_of_mem hu
  by_cases hij : i = j
  · subst hij
    exact Or.inr (Option.some.inj ((List.getElem?_eq_getElem hj).symm.trans ht))
  · refine Or.inl (List.mem_iff_getElem.mpr ⟨j, by simpa using hj, ?_⟩)
    rw [List.getElem_set_ne hij]

theorem Serves.tasked (h : Serves step docs taken s) {i : Nat} {t t' : Task Object}
    (halive : t' ≠ .dying) (ht : s.tasks[i]? = some t) (hadv : Advance s t s₁ t') :
    Serves step docs taken { s₁ with tasks := s₁.tasks.set i t' } := by
  obtain ⟨-, hfeeder, htasks, -, -⟩ := hadv.frame
  have hmem : t ∈ s.parts := List.mem_append_right _ (List.mem_of_getElem? ht)
  have hset : { s₁ with tasks := s₁.tasks.set i t' } =
      { s₁ with feeder := s.feeder, tasks := s.tasks.set i t' } := by
    rw [← hfeeder, ← htasks]
  rw [hset]
  refine h.advanced halive hadv hmem (fun g _ => ?_) (fun u hu => ?_) (fun u hu => ?_) h.feeder
    h.own id fun hf => by simp [h.idle hf]
  · have hsum := sum_map_set g t' ht
    simp only [parts, List.map_append, List.sum_append, add_assoc, hsum]
  · rcases List.mem_append.mp hu with hu | hu
    · exact Or.inl (List.mem_append_left _ hu)
    · rcases List.mem_or_eq_of_mem_set hu with hu | rfl
      · exact Or.inl (List.mem_append_right _ hu)
      · exact Or.inr rfl
  · rcases List.mem_append.mp hu with hu | hu
    · exact Or.inl (List.mem_append_left _ hu)
    · exact (mem_set_or ht hu).imp (List.mem_append_right _) id

theorem Serves.worked (h : Serves step docs taken s) {t t' : Task Object} (halive : t' ≠ .dying)
    (ht : s.feeder = .working t) (hadv : Advance s t s₁ t') :
    Serves step docs taken { s₁ with feeder := feederAfter t' } := by
  obtain ⟨-, -, htasks, -, -⟩ := hadv.frame
  have hparts : s.parts = t :: s.tasks := by simp [parts, ht, Feeder.own]
  have hmem : t ∈ s.parts := by simp [hparts]
  have hset : { s₁ with feeder := feederAfter t' } =
      { s₁ with feeder := feederAfter t', tasks := s.tasks } := by
    rw [← htasks]
  rw [hset]
  rcases hadv.feederAfter_cases halive with ⟨rfl, hf⟩ | ⟨object, hwaits, hf⟩
  · rw [hf]
    refine h.advanced halive hadv hmem (fun g hg => ?_) (fun u hu => ?_) (fun u hu => ?_) (by simp)
      (by simp) (by simp) (by simp)
    · simp only [hparts, Feeder.own, List.nil_append, List.map_cons, List.sum_cons, hg]
      abel
    · exact Or.inl (by simp_all [Feeder.own])
    · rw [hparts] at hu
      exact (List.mem_cons.mp hu).symm.imp (by simp [Feeder.own]) id
  · rw [hf]
    refine h.advanced halive hadv hmem (fun g _ => ?_) (fun u hu => ?_) (fun u hu => ?_) (by simp)
      (fun u hu => ?_) (by simp) (by simp)
    · simp only [hparts, Feeder.own, List.singleton_append, List.map_cons, List.sum_cons]
      abel
    · rw [hparts]
      exact (List.mem_cons.mp hu).symm.imp (List.mem_cons_of_mem _) id
    · rw [hparts] at hu
      exact (List.mem_cons.mp hu).symm.imp (List.mem_cons_of_mem _) id
    · cases hu
      rw [hwaits]
      rfl

theorem Serves.left (h : Serves step docs taken s) {i : Nat} {t t' : Task Object}
    (ht : s.tasks[i]? = some t) (hleft : t.left? = some t') :
    Serves step docs taken { s with tasks := s.tasks.set i t' } := by
  have hsound := h.sound t (List.mem_append_right _ (List.mem_of_getElem? ht))
  obtain ⟨rfl, rfl⟩ : t = .leaving ∧ t' = .ended := by
    cases t with
    | leaving => exact ⟨rfl, (Option.some.inj hleft).symm⟩
    | dying => cases hsound
    | _ => cases hleft
  have hmem : ∀ u ∈ s.feeder.own ++ s.tasks.set i .ended, u ∈ s.parts ∨ u = .ended := by
    intro u hu
    rcases List.mem_append.mp hu with hu | hu
    · exact Or.inl (List.mem_append_left _ hu)
    · exact (List.mem_or_eq_of_mem_set hu).imp (List.mem_append_right _) id
  refine ⟨h.sameStep, h.capacity, h.values, fun raw hraw => ?_, fun u hu => ?_, h.feeder, h.own,
    h.through, fun hf => by simp [h.idle hf], h.failed, fun hn => ?_, fun hn raw hraw => ?_⟩
  · exact h.sources raw ((hmem _ hraw).resolve_right (by simp))
  · rcases hmem u hu with hu | rfl
    · exact h.sound u hu
    · rfl
  · have hsum := sum_map_set (Task.promise s.step) .ended ht
    simp only [Task.promise, add_zero] at hsum
    rw [← h.objects hn]
    simp only [promise, parts, List.map_append, List.sum_append, hsum]
  · refine (h.decided hn raw hraw).imp (fun hpend => hpend.imp id fun hwork => ?_) id
    rcases List.mem_append.mp hwork with hwork | hwork
    · exact List.mem_append_left _ hwork
    · exact List.mem_append_right _ ((mem_set_or ht hwork).resolve_right (by simp))

theorem Serves.turned (h : Serves step docs taken s) (hf : s.feeder.own = []) {f : Feeder Object}
    (hown : f.own = []) (hdied : f ≠ .died)
    (hthrough : f = .finishing ∨ f = .ended → s.failure = none → s.reading = [])
    (hidle : f = .ended → s.tasks = []) : Serves step docs taken { s with feeder := f } := by
  have hparts : ({ s with feeder := f } : Stream Object).parts = s.parts := by
    simp [parts, hown, hf]
  refine ⟨h.sameStep, h.capacity, h.values, ?_, ?_, hdied, ?_, hthrough, hidle, h.failed,
    fun hn => ?_, fun hn raw hraw => ?_⟩
  · rw [hparts]
    exact h.sources
  · rw [hparts]
    exact h.sound
  · intro t ht
    change f = .working t at ht
    rw [ht] at hown
    cases hown
  · rw [← h.objects hn, promise, hparts]
    rfl
  · rw [Pending, hparts]
    exact h.decided hn raw hraw

theorem feeder_collected (s : Stream Object) : s.collected.feeder = s.feeder := by
  simp only [Stream.collected]
  split <;> rfl

theorem Serves.collected (h : Serves step docs taken s) (hf : s.feeder.own = []) :
    Serves step docs taken s.collected := by
  have hnone : s.tasks.any Task.hasDied = false := by
    rw [List.any_eq_false]
    intro t ht hd
    have hsound := h.sound t (List.mem_append_right _ ht)
    cases t with
    | died => cases hsound
    | _ => cases hd
  have hrest : s.collected = { s with tasks := s.tasks.filter fun t => !t.isOver } := by
    simp [Stream.collected, hnone]
  have hparts : ({ s with tasks := s.tasks.filter fun t => !t.isOver } : Stream Object).parts =
      s.parts.filter fun t => !t.isOver := by simp [parts, hf]
  rw [hrest]
  refine ⟨h.sameStep, h.capacity, h.values, fun raw hraw => ?_, fun t ht => ?_, h.feeder, h.own,
    h.through, fun hended => by simp [h.idle hended], h.failed, fun hn => ?_, fun hn raw hraw => ?_⟩
  · rw [hparts] at hraw
    exact h.sources raw (List.mem_of_mem_filter hraw)
  · rw [hparts] at ht
    exact h.sound t (List.mem_of_mem_filter ht)
  · rw [← h.objects hn]
    unfold promise
    rw [hparts, sum_map_filter_not_isOver]
    intro t _ ht
    cases t with
    | ended => rfl
    | died => rfl
    | _ => cases ht
  · refine (h.decided hn raw hraw).imp (fun hpend => hpend.imp id fun hwork => ?_) id
    rw [hparts]
    exact List.mem_filter.mpr ⟨hwork, rfl⟩

theorem Serves.accepted (h : Serves step docs taken s) (hf : s.feeder = .reading) {raw : Document}
    {rest : List (Item Document)} (hreading : s.reading = .value raw :: rest) :
    Serves step docs taken ({ s with reading := rest }.accept raw) := by
  obtain ⟨raw', hraw', heq⟩ := h.values (.value raw) (by simp [hreading])
  obtain rfl : raw = raw' := by simpa using heq
  have hown : s.feeder.own = [] := by simp [hf, Feeder.own]
  have hvalues : ∀ item ∈ rest, ∃ raw ∈ docs, item = .value raw :=
    fun item hitem => h.values item (by simp [hreading, hitem])
  -- whoever takes the document, the documents in work are the same
  have hgo : ∀ f ts, f.own ++ ts = .converting raw :: s.tasks ∨
      f.own ++ ts = s.tasks ++ [.converting raw] → f ≠ .died → f ≠ .finishing → f ≠ .ended →
      (∀ t, f = .working t → t.isAtWork = true) →
      Serves step docs taken { s with reading := rest, feeder := f, tasks := ts } := by
    intro f ts hwork hdied hfinishing hended hlive
    have hmem : ∀ u, u ∈ f.own ++ ts ↔ u = .converting raw ∨ u ∈ s.parts := by
      intro u
      rcases hwork with hwork | hwork <;> simp [hwork, parts, hown, or_comm]
    refine ⟨h.sameStep, h.capacity, hvalues, fun raw' hw => ?_, fun t ht => ?_, hdied, hlive, ?_,
      ?_, h.failed, fun hn => ?_, fun hn raw' hmem' => ?_⟩
    · rcases (hmem _).mp hw with heq | hw
      · cases heq
        exact hraw'
      · exact h.sources raw' hw
    · rcases (hmem _).mp ht with rfl | ht
      · rfl
      · exact h.sound t ht
    · intro hor
      exact absurd hor (fun hor => hor.elim hfinishing hended)
    · exact fun he => absurd he hended
    · rw [← h.objects hn]
      have hsum : ((f.own ++ ts).map (Task.promise s.step)).sum =
          s.step.promise raw + (s.tasks.map (Task.promise s.step)).sum := by
        rcases hwork with hwork | hwork
        · simp [hwork, Task.promise]
        · simp [hwork, Task.promise, add_comm]
      simp only [promise, parts, hsum, hown, hreading, List.nil_append, List.map_cons,
        List.sum_cons, promiseOf]
      abel
    · refine (h.decided hn raw' hmem').imp (fun hpend => ?_) id
      rcases hpend with hread | hw
      · rw [hreading] at hread
        rcases List.mem_cons.mp hread with heq | hread
        · cases heq
          exact Or.inr ((hmem _).mpr (Or.inl rfl))
        · exact Or.inl hread
      · exact Or.inr ((hmem _).mpr (Or.inr hw))
  unfold accept
  split
  · exact hgo .collecting (s.tasks ++ [.converting raw]) (Or.inr rfl) (by simp) (by simp) (by simp)
      (by simp)
  · refine hgo (.working (.converting raw)) s.tasks (Or.inl rfl) (by simp) (by simp) (by simp) ?_
    intro t ht
    cases ht
    rfl

theorem Serves.halted (h : Serves step docs taken s) (hf : s.feeder = .reading) {raw : Document}
    {rest : List (Item Document)} (hreading : s.reading = .value raw :: rest)
    (hfailed : s.failure.isSome = true) :
    Serves step docs taken { s with reading := rest, feeder := .finishing } := by
  have hne : s.failure ≠ none := Option.isSome_iff_ne_none.mp hfailed
  have hparts : ({ s with reading := rest, feeder := .finishing } : Stream Object).parts =
      s.parts := by simp [parts, hf, Feeder.own]
  refine ⟨h.sameStep, h.capacity, fun item hitem => h.values item (by simp [hreading, hitem]),
    ?_, ?_, by simp, by simp, fun _ hn => absurd hn hne, by simp, h.failed,
    fun hn => absurd hn hne, fun hn => absurd hn hne⟩
  · rw [hparts]
    exact h.sources
  · rw [hparts]
    exact h.sound

structure Sound (s : Stream Object) : Prop where
  parts : ∀ t ∈ s.parts, t.isDead = false
  feeder : s.feeder ≠ .died

theorem Serves.isSound (h : Serves step docs taken s) : s.Sound := ⟨h.sound, h.feeder⟩

theorem Serves.exists_died (h : Serves step docs taken s) {t t' : Task Object} (ht : t ∈ s.parts)
    (hadv : Advance s t s₁ t') (hd : t' = .dying) :
    ∃ raw ∈ docs, step.process raw = .error .died := by
  subst hd
  cases hadv with
  | @died raw hp => exact ⟨raw, h.sources raw ht, h.sameStep ▸ hp⟩

/-- Every move keeps the invariant, unless a document dies. -/
theorem Serves.moved_or_died (h : Serves step docs taken s) {e : Event} (hmove : Move s e s') :
    Serves step docs taken s' ∨ ¬ s'.Sound ∧ ∃ raw ∈ docs, step.process raw = .error .died := by
  cases hmove with
  | through hf hreading =>
    exact Or.inl (h.turned (by simp [hf, Feeder.own]) rfl (by simp) (fun _ _ => hreading) (by simp))
  | @broken e rest hf hreading =>
    obtain ⟨raw, -, heq⟩ := h.values (.failed e) (by simp [hreading])
    cases heq
  | halted hf hreading hfailed => exact Or.inl (h.halted hf hreading hfailed)
  | accepted hf hreading => exact Or.inl (h.accepted hf hreading)
  | @worked t t' s₁ hf hadv =>
    by_cases hd : t' = .dying
    · have ht : t ∈ s.parts := by simp [parts, hf, Feeder.own]
      refine Or.inr ⟨fun hsound => hsound.feeder ?_, h.exists_died ht hadv hd⟩
      simp [hd, feederAfter]
    · exact Or.inl (h.worked hd hf hadv)
  | resumed hf =>
    have hown : s.feeder.own = [] := by simp [hf, Feeder.own]
    have hown' : s.collected.feeder.own = [] := by rw [feeder_collected, hown]
    exact Or.inl ((h.collected hown).turned hown' rfl (by simp) (by simp) (by simp))
  | collected hf => exact Or.inl (h.collected (by simp [hf, Feeder.own]))
  | closed hf htasks =>
    exact Or.inl (h.turned (by simp [hf, Feeder.own]) rfl (by simp) (fun _ => h.through (Or.inl hf))
      fun _ => htasks)
  | @advanced i t t' s₁ ht hadv =>
    by_cases hd : t' = .dying
    · have hmem : t ∈ s.parts := List.mem_append_right _ (List.mem_of_getElem? ht)
      refine Or.inr ⟨fun hsound => ?_, h.exists_died hmem hadv hd⟩
      obtain ⟨-, -, htasks, -, -⟩ := hadv.frame
      have hlt : i < s₁.tasks.length := htasks ▸ (List.getElem?_eq_some_iff.mp ht).1
      have hdead := hsound.parts t' (List.mem_append_right _ (List.mem_set hlt t'))
      rw [hd] at hdead
      cases hdead
    · exact Or.inl (h.tasked hd ht hadv)
  | left ht hleft => exact Or.inl (h.left ht hleft)
  | aborted hf => exact absurd hf h.feeder
  | woke => exact Or.inl (h.waiting false)

theorem Serves.moved (h : Serves step docs taken s)
    (hlive : ∀ raw ∈ docs, step.process raw ≠ .error .died) {e : Event}
    (hmove : s.next? e = some s') : Serves step docs taken s' := by
  rcases h.moved_or_died (move_of_next? hmove) with hs' | ⟨-, raw, hraw, hdied⟩
  · exact hs'
  · exact absurd hdied (hlive raw hraw)

theorem Serves.moved_of_sound (h : Serves step docs taken s) {e : Event}
    (hmove : s.next? e = some s') (hsound : s'.Sound) : Serves step docs taken s' :=
  (h.moved_or_died (move_of_next? hmove)).resolve_right fun hd => hd.1 hsound

end Stream

end Load

end StoredObjects
