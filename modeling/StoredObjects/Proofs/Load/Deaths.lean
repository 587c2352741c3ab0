import StoredObjects.Proofs.Load.Reading

/-! # Documents that die in work

A task that dies frees its worker; the feeder finds it later and records a failure. When the feeder
itself dies, over a document that it kept as all workers were busy, nothing is recorded: its tasks
are given up, and the reader comes to an end like any other. So that nothing was recorded before,
the documents that fail must be with the workers at that moment. Others that died need not be, as
the feeder may not have seen their deaths.
-/

namespace StoredObjects

theorem Item.exists_of_readAll {α : Type} {items : List (Item α)} {before after : List α} {a : α}
    (h : (Item.readAll items).1 = before ++ a :: after) :
    ∃ rest, items = before.map .value ++ .value a :: rest := by
  induction items generalizing before with
  | nil => simp [readAll] at h
  | cons item items ih =>
    cases item with
    | value b =>
      cases before with
      | nil =>
        obtain ⟨rfl, -⟩ := List.cons.inj h
        exact ⟨items, rfl⟩
      | cons c before =>
        obtain ⟨rfl, htail⟩ := List.cons.inj h
        obtain ⟨rest, rfl⟩ := ih htail
        exact ⟨rest, rfl⟩
    | failed e => simp [readAll] at h
    | stalled => simp [readAll] at h

namespace Load

variable {Object : Type}

def Halt.isFailure : Halt → Bool
  | .failed _ => true
  | .died => false

def Step.halts (step : Step Object) (kind : Halt → Bool) (raw : Document) : Bool :=
  match step.process raw with
  | .ok _ => false
  | .error halt => kind halt

theorem Step.halts_of_ok {step : Step Object} {raw : Document} {r : Option (Loaded Object)}
    (h : step.process raw = .ok r) (kind : Halt → Bool) : step.halts kind raw = false := by
  simp [halts, h]

theorem Step.halts_of_error {step : Step Object} {raw : Document} {halt : Halt}
    (h : step.process raw = .error halt) (kind : Halt → Bool) :
    step.halts kind raw = kind halt := by
  simp [halts, h]

/-- Some document dies behind so many that all workers can be busy with them, among them all that
fail. -/
def Exposed (step : Step Object) (workers : Nat) (docs : List Document) : Prop :=
  ∃ before raw after, docs = before ++ raw :: after ∧ step.process raw = .error .died ∧
    workers ≤ before.length ∧ before.countP (step.halts Halt.isFailure) ≤ workers

/-- One for a document that comes to a halt of this kind and was not told. -/
def Task.suspicion (step : Step Object) (kind : Halt → Bool) : Task Object → Nat
  | converting raw => if step.halts kind raw then 1 else 0
  | dying | died => if kind .died then 1 else 0
  | delivering _ | leaving | ended => 0

/-- Documents that fail are with workers as long as nobody is told. -/
theorem sum_suspicion_le (step : Step Object) (tasks : List (Task Object)) :
    (tasks.map (Task.suspicion step Halt.isFailure)).sum ≤ tasks.countP Task.isLive := by
  induction tasks with
  | nil => simp
  | cons t tasks ih =>
    have ht : t.suspicion step Halt.isFailure ≤ if t.isLive then 1 else 0 := by
      cases t with
      | converting raw =>
        simp only [Task.suspicion, Task.isLive, if_true]
        split <;> omega
      | _ => simp [Task.suspicion, Task.isLive, Halt.isFailure]
    rw [List.map_cons, List.sum_cons, List.countP_cons]
    omega

namespace Stream

variable {s s' s₁ : Stream Object} {step : Step Object} {workers capacity : Nat}
  {docs seen : List Document} {reading : List (Item Document)} {t t' : Task Object}
  {answer : Option (Except Failure (Option Object))}

/-! ## Deaths that are noticed -/

/-- The documents `seen` of `docs` were taken from the reading, and nothing was recorded. Those that
cannot be converted are still with the tasks or with the feeder. -/
structure Unnoticed (step : Step Object) (workers : Nat) (docs seen : List Document)
    (s : Stream Object) : Prop where
  sameStep : s.step = step
  sameWorkers : s.workers = workers
  divided : docs = seen ++ (Item.readAll s.reading).1
  through : s.feeder = .finishing ∨ s.feeder = .ended → s.reading = []
  idle : s.feeder = .ended → s.tasks = []
  feeder : s.feeder ≠ .died
  own : ∀ raw, s.feeder = .working (.converting raw) → step.process raw ≠ .error .died
  busy : s.live ≤ workers
  inWork : s.parts.length ≤ seen.length
  suspects : ∀ kind, seen.countP (step.halts kind) ≤ (s.parts.map (Task.suspicion step kind)).sum

theorem unnoticed_opened :
    Unnoticed step workers (Item.readAll reading).1 [] (opened step workers capacity reading) := by
  refine ⟨rfl, rfl, rfl, ?_, ?_, ?_, ?_, ?_, ?_, ?_⟩ <;> simp [opened, live, parts, Feeder.own]

theorem Advance.suspicion_eq (h : Advance s t s₁ t') (hnone : s₁.failure = none)
    (kind : Halt → Bool) : t'.suspicion s.step kind = t.suspicion s.step kind := by
  cases h with
  | wanted hp => simp [Task.suspicion, Step.halts_of_ok hp]
  | unwanted hp => simp [Task.suspicion, Step.halts_of_ok hp]
  | failed => exact absurd hnone (failure_record s _)
  | died hp => simp [Task.suspicion, Step.halts_of_error hp]
  | delivered => rfl

theorem Advance.failure_eq_none (h : Advance s t s₁ t') (hnone : s₁.failure = none) :
    s.failure = none := by
  cases h with
  | failed => exact absurd hnone (failure_record s _)
  | _ => exact hnone

theorem Advance.isLive (h : Advance s t s₁ t') : t.isLive = true := by
  cases h <;> rfl

theorem collected_of_failure_eq_none (hnone : s.collected.failure = none) :
    s.failure = none ∧ .died ∉ s.tasks ∧
      s.collected = { s with tasks := s.tasks.filter fun t => !t.isOver } := by
  simp only [Stream.collected] at hnone ⊢
  split at hnone
  · exact absurd hnone (failure_record _ _)
  · rename_i hdied
    refine ⟨hnone, fun hmem => hdied (List.any_eq_true.mpr ⟨_, hmem, rfl⟩), ?_⟩
    rw [if_neg hdied]

theorem Unnoticed.collected (h : Unnoticed step workers docs seen s) (hown : s.feeder.own = [])
    (hnone : s.collected.failure = none) : Unnoticed step workers docs seen s.collected := by
  obtain ⟨-, hdied, heq⟩ := collected_of_failure_eq_none hnone
  have hparts : ({ s with tasks := s.tasks.filter fun t => !t.isOver } : Stream Object).parts =
      s.parts.filter fun t => !t.isOver := by simp [parts, hown]
  rw [heq]
  refine ⟨h.sameStep, h.sameWorkers, h.divided, h.through, fun hf => by simp [h.idle hf], h.feeder,
    h.own, ?_, ?_, fun kind => ?_⟩
  · exact (List.filter_sublist.countP_le).trans h.busy
  · rw [hparts]
    exact (List.length_filter_le _ _).trans h.inWork
  · -- what is forgotten has ended, and no document is in it
    rw [hparts, sum_map_filter_not_isOver]
    · exact h.suspects kind
    · intro t ht hover
      cases t with
      | died => exact absurd (by simpa [parts, hown] using ht) hdied
      | ended => rfl
      | _ => cases hover

theorem live_set_le {i : Nat} {t : Task Object} (t' : Task Object) (ht : s.tasks[i]? = some t)
    (hlive : t'.isLive = true → t.isLive = true) :
    (s.tasks.set i t').countP Task.isLive ≤ s.live := by
  have hset := countP_set_add (p := Task.isLive) t' ht
  simp only [live]
  cases hlive' : t'.isLive with
  | true =>
    rw [hlive', hlive hlive'] at hset
    omega
  | false =>
    simp only [hlive', Bool.false_eq_true, if_false] at hset
    omega

/-- A task comes to another stage, with the same document and no worker that it had not. -/
theorem Unnoticed.staged (h : Unnoticed step workers docs seen s) {i : Nat}
    (ht : s.tasks[i]? = some t) (hlive : t'.isLive = true → t.isLive = true)
    (hkept : ∀ kind, t'.suspicion step kind = t.suspicion step kind) :
    Unnoticed step workers docs seen { s with tasks := s.tasks.set i t' } := by
  refine ⟨h.sameStep, h.sameWorkers, h.divided, h.through, fun hf => by simp [h.idle hf], h.feeder,
    h.own, ?_, by simpa [parts] using h.inWork, fun kind => ?_⟩
  · exact (live_set_le _ ht hlive).trans h.busy
  · have hsum := sum_map_set (Task.suspicion step kind) t' ht
    have hsuspects := h.suspects kind
    rw [hkept kind] at hsum
    simp only [parts, List.map_append, List.sum_append] at hsuspects ⊢
    omega

theorem Unnoticed.advanced (h : Unnoticed step workers docs seen s) {i : Nat}
    (ht : s.tasks[i]? = some t) (hadv : Advance s t s₁ t') (hnone : s₁.failure = none) :
    Unnoticed step workers docs seen { s₁ with tasks := s₁.tasks.set i t' } := by
  obtain ⟨hreading, hfeeder, htasks, -, -⟩ := hadv.frame
  obtain ⟨hstep, hworkers⟩ := hadv.sameWork
  have hstaged := h.staged ht (fun _ => hadv.isLive) (h.sameStep ▸ hadv.suspicion_eq hnone)
  refine ⟨hstep.trans h.sameStep, hworkers.trans h.sameWorkers, hreading ▸ h.divided,
    hreading ▸ hfeeder ▸ h.through, ?_, hfeeder ▸ h.feeder, hfeeder ▸ h.own, ?_, ?_, ?_⟩
  · exact htasks ▸ hfeeder ▸ hstaged.idle
  · exact htasks ▸ hstaged.busy
  · simpa [parts, htasks, hfeeder] using hstaged.inWork
  · simpa [parts, htasks, hfeeder] using hstaged.suspects

theorem Unnoticed.left (h : Unnoticed step workers docs seen s) {i : Nat}
    (ht : s.tasks[i]? = some t) (hleft : t.left? = some t') :
    Unnoticed step workers docs seen { s with tasks := s.tasks.set i t' } := by
  cases t with
  | leaving =>
    cases hleft
    exact h.staged ht (by simp [Task.isLive]) fun _ => rfl
  | dying =>
    cases hleft
    exact h.staged ht (by simp [Task.isLive]) fun _ => rfl
  | _ => cases hleft

theorem Unnoticed.turned (h : Unnoticed step workers docs seen s) (hown : s.feeder.own = [])
    {f : Feeder Object} (hf : f.own = []) (hdied : f ≠ .died)
    (hthrough : f = .finishing ∨ f = .ended → s.reading = [])
    (hidle : f = .ended → s.tasks = []) :
    Unnoticed step workers docs seen { s with feeder := f } := by
  have hparts : ({ s with feeder := f } : Stream Object).parts = s.parts := by
    simp [parts, hf, hown]
  refine ⟨h.sameStep, h.sameWorkers, h.divided, hthrough, hidle, hdied, fun raw hraw => ?_, h.busy,
    hparts ▸ h.inWork, hparts ▸ h.suspects⟩
  change f = .working (.converting raw) at hraw
  rw [hraw] at hf
  cases hf

theorem Unnoticed.worked (h : Unnoticed step workers docs seen s) (hf : s.feeder = .working t)
    (hadv : Advance s t s₁ t') (hnone : s₁.failure = none) :
    Unnoticed step workers docs seen { s₁ with feeder := feederAfter t' } := by
  obtain ⟨hreading, -, htasks, -, -⟩ := hadv.frame
  obtain ⟨hstep, hworkers⟩ := hadv.sameWork
  have hkept := h.sameStep ▸ hadv.suspicion_eq hnone
  have halive : t' ≠ .dying := by
    rintro rfl
    cases hadv with
    | @died raw hp => exact h.own raw hf (h.sameStep ▸ hp)
  have hinWork := h.inWork
  have hsuspects := h.suspects
  simp only [parts, hf, Feeder.own, List.singleton_append, List.length_cons, List.map_cons,
    List.sum_cons] at hinWork hsuspects
  simp only [← hkept] at hsuspects
  have hbusy : s₁.live ≤ workers := by
    simpa [live, htasks] using h.busy
  rcases hadv.feederAfter_cases halive with ⟨rfl, hafter⟩ | ⟨object, rfl, hafter⟩
  · rw [hafter]
    refine ⟨hstep.trans h.sameStep, hworkers.trans h.sameWorkers, hreading ▸ h.divided, by simp,
      by simp, by simp, by simp, hbusy, ?_, ?_⟩
    · simp only [parts, Feeder.own, List.nil_append, htasks]
      omega
    · simpa [parts, Feeder.own, htasks, Task.suspicion] using hsuspects
  · rw [hafter]
    refine ⟨hstep.trans h.sameStep, hworkers.trans h.sameWorkers, hreading ▸ h.divided, by simp,
      by simp, by simp, by simp, hbusy, ?_, ?_⟩
    · simpa [parts, Feeder.own, htasks] using hinWork
    · simpa [parts, Feeder.own, htasks] using hsuspects

/-- While no document is exposed, the feeder takes none to itself that dies. -/
theorem Unnoticed.accepted (h : Unnoticed step workers docs seen s)
    (hsafe : ¬ Exposed step workers docs) (hf : s.feeder = .reading) {raw : Document}
    {rest : List (Item Document)} (hreading : s.reading = .value raw :: rest) :
    Unnoticed step workers docs (seen ++ [raw])
      (({ s with reading := rest } : Stream Object).accept raw) := by
  have hown : s.parts = s.tasks := by simp [parts, hf, Feeder.own]
  have hdivided : docs = seen ++ raw :: (Item.readAll rest).1 := by
    simpa [hreading, Item.readAll] using h.divided
  have hinWork := h.inWork
  have hsuspects := h.suspects
  have hbusy := h.busy
  rw [hown] at hinWork hsuspects
  have hlast : ∀ kind, [raw].countP (step.halts kind) =
      (Task.converting raw : Task Object).suspicion step kind := by
    simp [Task.suspicion, List.countP_cons]
  unfold accept
  split
  · rename_i hfree
    change s.live < s.workers at hfree
    have hsame := h.sameWorkers
    refine ⟨h.sameStep, h.sameWorkers, by simpa using hdivided, by simp, by simp, by simp, by simp,
      ?_, ?_, fun kind => ?_⟩
    · simp only [live, List.countP_append, List.countP_singleton] at hfree ⊢
      split <;> omega
    · simpa [parts, Feeder.own] using hinWork
    · have hkind := hsuspects kind
      simp only [parts, Feeder.own, List.nil_append, List.countP_append, List.map_append,
        List.sum_append, hlast, List.map_singleton, List.sum_singleton]
      omega
  · rename_i hfull
    change ¬ s.live < s.workers at hfull
    have hlive : s.live ≤ s.tasks.length := List.countP_le_length
    have hsame := h.sameWorkers
    refine ⟨h.sameStep, h.sameWorkers, by simpa using hdivided, by simp, by simp, by simp, ?_,
      h.busy, ?_, fun kind => ?_⟩
    · -- what fails is with the workers: a death here would be that of an exposed document
      intro raw' heq hdied
      cases heq
      refine hsafe ⟨seen, raw, _, hdivided, hdied, by omega, ?_⟩
      exact ((hsuspects _).trans (sum_suspicion_le step s.tasks)).trans h.busy
    · simpa [parts, Feeder.own] using hinWork
    · have hkind := hsuspects kind
      simp only [parts, Feeder.own, List.singleton_append, List.countP_append, List.map_cons,
        List.sum_cons, hlast]
      omega

/-- While no document is exposed, every move that leaves nothing recorded keeps this so. -/
theorem Unnoticed.moved (h : Unnoticed step workers docs seen s)
    (hsafe : ¬ Exposed step workers docs) {e : Event} (hmove : Move s e s')
    (hnone : s'.failure = none) : ∃ seen, Unnoticed step workers docs seen s' := by
  cases hmove with
  | through hf hreading =>
    exact ⟨seen, h.turned (by simp [hf, Feeder.own]) rfl (by simp) (fun _ => hreading) (by simp)⟩
  | broken => exact absurd hnone (failure_record s _)
  | halted hf hreading hfailed =>
    change s.failure = none at hnone
    simp [hnone] at hfailed
  | accepted hf hreading => exact ⟨_, h.accepted hsafe hf hreading⟩
  | worked hf hadv => exact ⟨seen, h.worked hf hadv hnone⟩
  | resumed hf =>
    have hcollected := h.collected (by simp [hf, Feeder.own]) hnone
    have hown : s.collected.feeder.own = [] := by rw [feeder_collected, hf]; rfl
    exact ⟨seen, hcollected.turned hown rfl (by simp) (by simp) (by simp)⟩
  | collected hf => exact ⟨seen, h.collected (by simp [hf, Feeder.own]) hnone⟩
  | closed hf htasks =>
    exact ⟨seen, h.turned (by simp [hf, Feeder.own]) rfl (by simp) (fun _ => h.through (Or.inl hf))
      fun _ => htasks⟩
  | advanced ht hadv => exact ⟨seen, h.advanced ht hadv hnone⟩
  | left ht hleft => exact ⟨seen, h.left ht hleft⟩
  | aborted hf => exact absurd hf h.feeder
  | woke => exact ⟨seen, h.sameStep, h.sameWorkers, h.divided, h.through, h.idle, h.feeder, h.own,
      h.busy, h.inWork, h.suspects⟩

theorem Move.failure_eq_none {e : Event} (h : Move s e s') (hnone : s'.failure = none) :
    s.failure = none := by
  cases h with
  | broken => exact absurd hnone (failure_record s _)
  | accepted _ _ hs => exact hs
  | worked _ hadv => exact hadv.failure_eq_none hnone
  | resumed => exact (collected_of_failure_eq_none hnone).1
  | collected => exact (collected_of_failure_eq_none hnone).1
  | advanced _ hadv => exact hadv.failure_eq_none hnone
  | _ => exact hnone

theorem Unnoticed.next (h : Unnoticed step workers docs seen s) (hnext : s.next = (s', answer)) :
    Unnoticed step workers docs seen s' := by
  cases reads_of_next hnext <;>
    exact ⟨h.sameStep, h.sameWorkers, h.divided, h.through, h.idle, h.feeder, h.own, h.busy,
      h.inWork, h.suspects⟩

theorem failure_of_next (hnext : s.next = (s', answer)) : s'.failure = s.failure := by
  cases reads_of_next hnext <;> rfl

/-- Where no document is exposed, one that cannot be converted makes every reading fail. -/
theorem exists_error_of_collects {r : Except Failure (List Object)} (hcollects : s.Collects r)
    (h : s.failure = none → ∃ seen, Unnoticed step workers docs seen s)
    (hbad : ∃ raw ∈ docs, ∃ halt, step.process raw = .error halt)
    (hsafe : ¬ Exposed step workers docs) : ∃ e, r = .error e := by
  induction hcollects with
  | @ended s s' hnext =>
    cases reads_of_next hnext with
    | ended hpeeked hqueue hclosed hfailure =>
      obtain ⟨seen, h⟩ := h hfailure
      obtain ⟨raw, hraw, halt, hhalt⟩ := hbad
      have hended : s.feeder = .ended := by
        cases hf : s.feeder with
        | ended => rfl
        | died => exact absurd hf h.feeder
        | _ => simp [isClosed, hf] at hclosed
      have hseen : docs = seen := by
        simpa [h.through (Or.inr hended), Item.readAll] using h.divided
      have hpos : 0 < seen.countP (step.halts fun _ => true) :=
        List.countP_pos_iff.mpr ⟨raw, hseen ▸ hraw, Step.halts_of_error hhalt _⟩
      have hsuspects := h.suspects fun _ => true
      simp only [parts, hended, Feeder.own, h.idle hended, List.append_nil, List.map_nil,
        List.sum_nil] at hsuspects
      omega
  | failed => exact ⟨_, rfl⟩
  | taken hnext hrest ih =>
    obtain ⟨e, rfl⟩ := ih fun hnone => (h ((failure_of_next hnext).symm.trans hnone)).imp
      fun _ hseen => hseen.next hnext
    exact ⟨e, rfl⟩
  | waited hnext hrest ih =>
    exact ih fun hnone => (h ((failure_of_next hnext).symm.trans hnone)).imp
      fun _ hseen => hseen.next hnext
  | moved hmove hrest ih =>
    have hmove := move_of_next? hmove
    refine ih fun hnone => ?_
    obtain ⟨seen, hseen⟩ := h (hmove.failure_eq_none hnone)
    exact hseen.moved hsafe hmove hnone

/-! ## A death that goes unnoticed -/

def Ends (s : Stream Object) : Prop := ∃ objects, s.Collects (.ok objects)

theorem Ends.moved {e : Event} (h : s'.Ends) (hmove : s.next? e = some s') : s.Ends :=
  h.imp fun _ hcollects => .moved hmove hcollects

section Pool

variable {held : List (Task Object)} {raw : Document} {rest : List (Item Document)}

theorem isOver_append_singleton {t : Task Object} (hheld : ∀ u ∈ held, u.isOver = false)
    (ht : t.isOver = false) : ∀ u ∈ held ++ [t], u.isOver = false :=
  List.forall_mem_append.mpr ⟨hheld, List.forall_mem_singleton.mpr ht⟩

section Free

variable (hheld : ∀ t ∈ held, t.isOver = false) (hfree : held.countP Task.isLive < workers)
include hheld hfree

/-- A worker takes the document and keeps it. -/
theorem ends_of_held
    (h : (pool step workers capacity rest .reading (held ++ [.converting raw]) []).Ends) :
    (pool step workers capacity (.value raw :: rest) .reading held []).Ends := by
  have hall := isOver_append_singleton (t := .converting raw) hheld rfl
  exact (h.moved (collect_of_held hall)).moved (read_of_free _ hfree)

/-- A worker takes the document and dies over it, and the feeder does not see it. -/
theorem ends_of_unseen (hdied : step.process raw = .error .died)
    (h : (pool step workers capacity rest .reading (held ++ [.dying]) []).Ends) :
    (pool step workers capacity (.value raw :: rest) .reading held []).Ends := by
  have hall := isOver_append_singleton (t := .dying) hheld rfl
  have hdying : (pool step workers capacity rest .collecting (held ++ [.converting raw]) []).next?
      (.task held.length) =
        some (pool step workers capacity rest .collecting (held ++ [.dying]) []) := by
    simp [next?, advance?, pool, hdied]
  exact ((h.moved (collect_of_held hall)).moved hdying).moved (read_of_free _ hfree)

end Free

/-- When the feeder has died, its tasks are given up, and the reader comes to the end. -/
theorem ends_of_died (hf : s.feeder = .died) (hpeeked : s.peeked = none) (hqueue : s.queue = [])
    (hfailure : s.failure = none) : s.Ends := by
  induction hn : s.live generalizing s with
  | zero =>
    have hclosed : s.isClosed = true := by simp [isClosed, hf, hn]
    have hnext := next_of_closed hpeeked (Or.inr hfailure) hqueue hclosed
    rw [hfailure] at hnext
    exact ⟨[], .ended hnext⟩
  | succ n ih =>
    obtain ⟨t, ht, hlive⟩ : ∃ t ∈ s.tasks, t.isLive = true :=
      List.countP_pos_iff.mp (Nat.lt_of_lt_of_eq n.succ_pos hn.symm)
    obtain ⟨i, hi⟩ := List.mem_iff_getElem?.mp ht
    have habort : s.next? (.abort i) = some { s with tasks := s.tasks.set i .ended } := by
      simp [next?, hf, hi, hlive]
    have hset := countP_set_add (p := Task.isLive) Task.ended hi
    have hended : (Task.ended : Task Object).isLive = false := rfl
    have hfewer : ({ s with tasks := s.tasks.set i .ended } : Stream Object).live = n := by
      simp only [hlive, hended, if_true, Bool.false_eq_true, if_false] at hset
      simp only [live] at hn ⊢
      omega
    have hrest : ({ s with tasks := s.tasks.set i .ended } : Stream Object).Ends :=
      ih hf hpeeked hqueue hfailure hfewer
    exact hrest.moved habort

/-- The feeder keeps the document, and dies over it. -/
theorem ends_of_full (hfull : workers ≤ held.countP Task.isLive)
    (hdied : step.process raw = .error .died) :
    (pool step workers capacity (.value raw :: rest) .reading held []).Ends := by
  have hwork : (pool step workers capacity rest (.working (.converting raw)) held []).next? .work =
      some (pool step workers capacity rest .died held []) := by
    simp [next?, advance?, pool, hdied, feederAfter]
  have hdead : (pool step workers capacity rest .died held []).Ends := ends_of_died rfl rfl rfl rfl
  exact (hdead.moved hwork).moved (read_of_full hfull)

/-- Of the documents before one that dies, the workers can be left with those that fail and so many
others that none is free. -/
theorem ends_of_before {before : List Document} (hcapacity : 0 < capacity)
    (hdied : step.process raw = .error .died) (hheld : ∀ t ∈ held, t.isOver = false)
    (hfew : before.countP (step.halts Halt.isFailure) + held.countP Task.isLive ≤ workers)
    (hmany : workers ≤ before.length + held.countP Task.isLive) :
    (pool step workers capacity (before.map .value ++ .value raw :: rest) .reading
      held []).Ends := by
  induction before generalizing held with
  | nil => exact ends_of_full (by simpa using hmany) hdied
  | cons doc before ih =>
    have hle : before.countP (step.halts Halt.isFailure) ≤ before.length := List.countP_le_length
    rw [List.length_cons] at hmany
    rw [List.countP_cons] at hfew
    have hhold : before.countP (step.halts Halt.isFailure) + held.countP Task.isLive < workers →
        (pool step workers capacity (.value doc :: (before.map .value ++ .value raw :: rest))
          .reading held []).Ends := by
      intro hspare
      have hone : (held ++ [Task.converting doc]).countP Task.isLive =
          held.countP Task.isLive + 1 := by
        simp [Task.isLive]
      exact ends_of_held hheld (by omega)
        (ih (isOver_append_singleton hheld rfl) (by omega) (by omega))
    -- one that fails stays with a worker, another one while there is one to spare
    by_cases henough : workers ≤ before.length + held.countP Task.isLive
    · cases hp : step.process doc with
      | ok loaded? =>
        obtain ⟨objects, hrest⟩ := ih hheld (by omega) henough
        exact ⟨_, collects_of_passed hrest hcapacity hheld hp⟩
      | error halt =>
        cases halt with
        | failed e =>
          simp only [Step.halts_of_error hp, Halt.isFailure, if_true] at hfew
          exact hhold (by omega)
        | died =>
          rcases Nat.lt_or_ge (held.countP Task.isLive) workers with hfree | hfull
          · have hsame : (held ++ [Task.dying]).countP Task.isLive = held.countP Task.isLive := by
              simp [Task.isLive]
            exact ends_of_unseen hheld hfree hp
              (ih (isOver_append_singleton hheld rfl) (by omega) (by omega))
          · exact ends_of_full hfull hp
    · exact hhold (by omega)

end Pool

/-- With a document that cannot be converted, a reader can come to the end of a load exactly when a
document is exposed. -/
theorem ends_opened_iff (hcapacity : 0 < capacity)
    (hbad : ∃ raw ∈ (Item.readAll reading).1, ∃ halt, step.process raw = .error halt) :
    (opened step workers capacity reading).Ends ↔
      Exposed step workers (Item.readAll reading).1 := by
  constructor
  · rintro ⟨objects, hcollects⟩
    by_contra hsafe
    obtain ⟨e, he⟩ := exists_error_of_collects hcollects (fun _ => ⟨[], unnoticed_opened⟩) hbad
      hsafe
    cases he
  · rintro ⟨before, raw, after, hdocs, hdied, hmany, hfew⟩
    obtain ⟨rest, hrest⟩ := Item.exists_of_readAll hdocs
    have hpool : opened step workers capacity reading =
        pool step workers capacity (before.map .value ++ .value raw :: rest) .reading [] [] := by
      simp [opened, pool, hrest]
    rw [hpool]
    exact ends_of_before hcapacity hdied (by simp) (by simpa using hfew) (by simpa using hmany)

end Stream

end Load

end StoredObjects
