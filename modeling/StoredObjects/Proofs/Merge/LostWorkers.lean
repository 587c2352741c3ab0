import Mathlib.Data.List.Induction
import StoredObjects.Proofs.Merge.FirstFailure

/-! # Workers that die over their sources

A worker that its source takes down leaves without counting itself off and without recording a
failure. Its death is reported once, at the end of the queue, and then forgotten, while the worker
counts as active for ever. So the death of a worker stands only where some source keeps the queue
open, or fails by itself.
-/

namespace StoredObjects

universe u

variable {α : Type u}

/-! ## How sources are over -/

namespace Source

variable {source : Source α} {items : List α} {e : Failure}

def EndsFirst (source : Source α) : Prop :=
  ∃ items, source.Gives items ∧ source items.length = .ended

/-- The first that comes and is no item takes the worker down. -/
def DiesFirst (source : Source α) : Prop :=
  ∃ items, source.Gives items ∧ source items.length = .died

/-- After its items the source ends, or takes its worker down; it neither fails nor goes on for
ever. -/
def Finishes (source : Source α) : Prop := source.EndsFirst ∨ source.DiesFirst

theorem Finishes.not_failsFirst (h : source.Finishes) : ¬ source.FailsFirst e := by
  rintro ⟨items, hitems, hfailed⟩
  rcases h with ⟨given, hgiven, hstop⟩ | ⟨given, hgiven, hstop⟩
  all_goals
    have hlength := hgiven.length_eq hitems (by simp [hstop]) (by simp [hfailed])
    rw [hlength, hfailed] at hstop
    cases hstop

theorem EndsFirst.not_diesFirst (h : source.EndsFirst) : ¬ source.DiesFirst := by
  rintro ⟨items, hitems, hdied⟩
  obtain ⟨given, hgiven, hended⟩ := h
  have hlength := hgiven.length_eq hitems (by simp [hended]) (by simp [hdied])
  rw [hlength, hdied] at hended
  cases hended

end Source

namespace Merge

variable {m m' : Merge α} {sources : List (Source α)} {n : Nat} {answers : List (Answer α)}
  {passed : List α} {e : Failure}

/-- Once the death of a worker was reported, there are only failures. -/
def DeathSticks (answers : List (Answer α)) : Prop :=
  ∀ before after, answers = before ++ .failed .workerDied :: after →
    ∀ answer ∈ after, ∃ e, answer = .failed e

/-! ## One worker after another -/

/-- What can be done with each worker alone can be done with all of them in turn. -/
theorem exists_runs_of_each (m : Merge α) {R : Worker α → Worker α → Prop}
    (todo : List (Worker α)) (heach : ∀ w ∈ todo, ∀ workers i, workers[i]? = some w →
      ∃ (n : Nat) (items : List α) (w' : Worker α), R w w' ∧
        Runs { m with workers } n (items.map .item) { m with workers := workers.set i w' })
    (done : List (Worker α)) : ∃ (n : Nat) (items : List α) (todo' : List (Worker α)),
      List.Forall₂ R todo todo' ∧ Runs { m with workers := done ++ todo } n (items.map .item)
        { m with workers := done ++ todo' } := by
  induction todo generalizing done with
  | nil => exact ⟨0, [], [], .nil, .start⟩
  | cons w todo ih =>
    obtain ⟨n, items, w', hw', hfirst⟩ :=
      heach w (by simp) (done ++ w :: todo) done.length (by simp)
    obtain ⟨n', items', todo', htodo', hrest⟩ :=
      ih (fun w hw => heach w (by simp [hw])) (done ++ [w'])
    refine ⟨n + n', items ++ items', w' :: todo', .cons hw' htodo', ?_⟩
    simp only [List.set_append_right _ _ (Nat.le_refl _), Nat.sub_self,
      List.set_cons_zero] at hfirst
    simp only [List.append_assoc, List.singleton_append] at hrest
    simpa using hfirst.trans hrest

/-- Nothing is on its way to the reader, and nothing has failed. -/
structure Quiet (m : Merge α) : Prop where
  capacity : 0 < m.capacity
  queue : m.queue = []
  failure : m.failure = none
  waiting : m.waiting = false

theorem Quiet.exists_runs_items (h : Quiet m) {i : Nat} {source : Source α} {items : List α}
    (hw : m.workers[i]? = some { source }) (hitems : source.Gives items) :
    ∃ n, Runs m n (items.map .item) (m.setWorker i { source, taken := items.length }) := by
  obtain ⟨hlt, -⟩ := List.getElem?_eq_some_iff.mp hw
  induction items using List.reverseRecOn with
  | nil =>
    refine ⟨0, ?_⟩
    rw [List.length_nil, setWorker, set_of_getElem? hw]
    exact .start
  | append_singleton items a ih =>
    obtain ⟨n, hrun⟩ := ih (hitems.front (List.prefix_append _ _))
    have hnext := hitems items.length a (by simp)
    have htaken : (m.setWorker i { source, taken := items.length }).next? (.take i) =
        some (m.setWorker i { source, taken := items.length + 1, hand := some a }) := by
      simp [next?, Event.place, hlt, Worker.isRunning, move?, take?, hnext, setWorker]
    have hput : (m.setWorker i { source, taken := items.length + 1, hand := some a }).next?
        (.put i) = some { m.setWorker i { source, taken := items.length + 1 } with
          queue := [a] } := by
      simp [next?, Event.place, hlt, Worker.isRunning, move?, h.queue, h.capacity, setWorker]
    refine ⟨n + 1 + 1, ?_⟩
    rw [List.map_append]
    refine ((hrun.moved htaken).moved hput).answered ?_
    simp [look, setWorker, h.failure, h.queue, h.waiting]

structure Worker.FinishedFor (source : Source α) (w : Worker α) : Prop where
  stopped : w.isRunning = false
  lost : source.DiesFirst → w.phase = .lost false

theorem Quiet.exists_runs_finished (h : Quiet m) {i : Nat} {source : Source α}
    (hw : m.workers[i]? = some { source }) (hfinishes : source.Finishes) :
    ∃ (n : Nat) (items : List α) (w : Worker α), w.FinishedFor source ∧
      Runs m n (items.map .item) (m.setWorker i w) := by
  obtain ⟨hlt, -⟩ := List.getElem?_eq_some_iff.mp hw
  rcases hfinishes with hends | hdies
  · obtain ⟨items, hitems, hended⟩ := id hends
    obtain ⟨n, hrun⟩ := h.exists_runs_items hw hitems
    refine ⟨n + 1, items, { source, taken := items.length + 1, phase := .ended },
      ⟨rfl, fun hdies => absurd hdies hends.not_diesFirst⟩, hrun.moved (e := .take i) ?_⟩
    simp [next?, Event.place, hlt, Worker.isRunning, move?, take?, hended, setWorker, Worker.leave]
  · obtain ⟨items, hitems, hdied⟩ := hdies
    obtain ⟨n, hrun⟩ := h.exists_runs_items hw hitems
    refine ⟨n + 1, items, { source, taken := items.length + 1, phase := .lost false },
      ⟨rfl, fun _ => rfl⟩, hrun.moved (e := .take i) ?_⟩
    simp [next?, Event.place, hlt, Worker.isRunning, move?, take?, hdied, setWorker, Worker.leave]

/-- A source that fails makes the other workers stop, and nothing is on its way to the reader. -/
theorem Quiet.exists_runs_failed (h : Quiet m) {i : Nat} {source : Source α}
    (hw : m.workers[i]? = some { source }) (hfails : source.FailsFirst e) :
    ∃ (n : Nat) (items : List α) (w : Worker α),
      Runs m n (items.map .item) ((m.record e).setWorker i w) := by
  obtain ⟨hlt, -⟩ := List.getElem?_eq_some_iff.mp hw
  obtain ⟨items, hitems, hfailed⟩ := hfails
  obtain ⟨n, hrun⟩ := h.exists_runs_items hw hitems
  refine ⟨n + 1, items, { source, taken := items.length + 1, phase := .ended },
    hrun.moved (e := .take i) ?_⟩
  simp [next?, Event.place, hlt, Worker.isRunning, move?, take?, hfailed, setWorker, Worker.leave,
    record, h.failure]

theorem exists_runs_all_finished (capacity patience : Nat)
    (hfinish : ∀ source ∈ sources, source.Finishes) : ∃ (n : Nat) (items : List α) (m : Merge α),
      Runs (ofSources capacity patience sources) n (items.map .item) m ∧ Quiet m ∧
        List.Forall₂ Worker.FinishedFor sources m.workers := by
  have hquiet : ∀ workers, Quiet { ofSources capacity patience sources with workers } :=
    fun workers => ⟨by simp only [ofSources]; omega, rfl, rfl, rfl⟩
  obtain ⟨n, items, workers, hover, hrun⟩ := exists_runs_of_each
    (R := fun w w' => w'.FinishedFor w.source) (ofSources capacity patience sources)
    (sources.map fun source => { source }) (fun w hw workers i hi => by
      obtain ⟨source, hsource, rfl⟩ := List.mem_map.mp hw
      obtain ⟨n, items, w', hw', hrun⟩ :=
        (hquiet workers).exists_runs_finished hi (hfinish source hsource)
      exact ⟨n, items, w', hw', hrun⟩) []
  rw [List.forall₂_map_left_iff] at hover
  exact ⟨n, items, _, hrun, hquiet workers, hover⟩

theorem exists_runs_stopped (hcancelled : m.cancelled = true) : ∃ (n : Nat) (items : List α)
    (m' : Merge α), Runs m n (items.map .item) m' ∧ m'.isClosed = true ∧ m'.queue = m.queue ∧
      ∀ w ∈ m.workers, w.isRunning = false → w ∈ m'.workers := by
  have heach : ∀ w ∈ m.workers, ∀ workers i, workers[i]? = some w →
      ∃ (n : Nat) (items : List α) (w' : Worker α),
        (w'.isRunning = false ∧ (w.isRunning = false → w' = w)) ∧
        Runs { m with workers } n (items.map .item) { m with workers := workers.set i w' } := by
    intro w hw workers i hi
    cases hrunning : w.isRunning with
    | false =>
      refine ⟨0, [], w, ⟨hrunning, fun _ => rfl⟩, ?_⟩
      rw [set_of_getElem? hi]
      exact .start
    | true =>
      refine ⟨1, [], w.leave .ended, ⟨rfl, by simp⟩, Runs.start.moved (e := .stop i) ?_⟩
      simp [next?, Event.place, hi, hrunning, move?, hcancelled, setWorker]
  obtain ⟨n, items, workers, hstopped, hrun⟩ := exists_runs_of_each m m.workers heach []
  refine ⟨n, items, _, hrun, ?_, rfl, fun w hw hover => ?_⟩
  · simp only [isClosed, List.nil_append, Bool.not_eq_true', List.any_eq_false, Bool.not_eq_true]
    intro w' hw'
    obtain ⟨w, -, hover, -⟩ := exists_mem_of_forall₂ hstopped.flip hw'
    exact hover
  · obtain ⟨w', hw', -, hsame⟩ := exists_mem_of_forall₂ hstopped hw
    exact hsame hover ▸ hw'

/-! ## Deaths are reported one by one -/

def Worker.isKnownLoss (w : Worker α) : Bool := w.phase == .lost true

theorem countP_isUnknownLoss_reported {workers : List (Worker α)}
    (h : workers.any Worker.isUnknownLoss = true) :
    (reported workers).countP Worker.isUnknownLoss + 1 = workers.countP Worker.isUnknownLoss ∧
    (reported workers).countP Worker.isKnownLoss = workers.countP Worker.isKnownLoss + 1 := by
  induction workers with
  | nil => simp at h
  | cons w workers ih =>
    unfold reported
    split
    · rename_i hlost
      have hphase : w.phase = .lost false := by simpa [Worker.isUnknownLoss] using hlost
      simp [Worker.isUnknownLoss, Worker.isKnownLoss, hphase]
    · rename_i hnot
      have hrest := ih (by simpa [hnot] using h)
      simp only [List.countP_cons]
      omega

theorem any_isRunning_reported (workers : List (Worker α)) :
    (reported workers).any Worker.isRunning = workers.any Worker.isRunning := by
  induction workers with
  | nil => rfl
  | cons w workers ih =>
    unfold reported
    split
    · rename_i hlost
      have hphase : w.phase = .lost false := by simpa [Worker.isUnknownLoss] using hlost
      simp only [List.any_cons, Worker.isRunning, hphase]
      rfl
    · simp [ih]

/-- At the end of the queue the reader hears of every lost worker, and then of the end. -/
theorem Quiet.exists_runs_reports (h : Quiet m) (hclosed : m.isClosed = true) :
    ∃ m', Runs m 0 (List.replicate (m.workers.countP Worker.isUnknownLoss) (.failed .workerDied) ++
      [.ended]) m' := by
  induction hk : m.workers.countP Worker.isUnknownLoss generalizing m with
  | zero =>
    have hnone : m.workers.any Worker.isUnknownLoss = false := by
      simpa [List.countP_eq_zero] using hk
    have hlook : m.look = ({ m with waiting := false }, some .ended) := by
      simp [look_of_closed (Or.inr h.failure) h.queue hclosed, atEnd, h.failure, hnone]
    exact ⟨_, Runs.start.answered hlook⟩
  | succ k ih =>
    have hlost : m.workers.any Worker.isUnknownLoss = true := by
      have hpos : 0 < m.workers.countP Worker.isUnknownLoss := by omega
      simpa [List.countP_pos_iff] using hpos
    have hcount := (countP_isUnknownLoss_reported hlost).1
    have hlook : m.look = ({ m with workers := reported m.workers, waiting := false },
        some (.failed .workerDied)) := by
      simp [look_of_closed (Or.inr h.failure) h.queue hclosed, atEnd, h.failure, hlost]
    have hclosed' : ({ m with workers := reported m.workers, waiting := false } :
        Merge α).isClosed = true := by
      simpa [isClosed, any_isRunning_reported] using hclosed
    obtain ⟨m', hrest⟩ := ih (m := { m with workers := reported m.workers, waiting := false })
      ⟨h.capacity, h.queue, h.failure, rfl⟩ hclosed' (by simpa using by omega)
    refine ⟨m', ?_⟩
    rw [List.replicate_succ]
    simpa using (Runs.start.answered hlook).trans hrest

/-! ## What is known of a merge without failures -/

theorem Flows.failure_eq_none_of_not_failsFirst (h : Flows sources passed m)
    (hnever : ∀ source ∈ sources, ∀ e, ¬ source.FailsFirst e) : m.failure = none := by
  by_contra hsome
  obtain ⟨e, he⟩ := Option.ne_none_iff_exists'.mp hsome
  obtain ⟨source, hsource, hfails⟩ := h.failed e he
  exact hnever source hsource e hfails

theorem Flows.finishes_of_closed (h : Flows sources passed m) (hclosed : m.isClosed = true)
    (hfailure : m.failure = none) : ∀ source ∈ sources, source.Finishes := by
  obtain ⟨puts, -, hover⟩ := h.over hclosed hfailure
  intro source hsource
  obtain ⟨put, -, hgives, hstop⟩ := exists_mem_of_forall₂ hover hsource
  exact hstop.imp (fun hended => ⟨put, hgives, hended⟩) fun hdied => ⟨put, hgives, hdied⟩

theorem Flows.endsFirst_of_ended (h : Flows sources passed m) (hfailure : m.failure = none)
    {w : Worker α} (hw : w ∈ m.workers) (hphase : w.phase = .ended) : w.source.EndsFirst := by
  obtain ⟨puts, hputs, -⟩ := h.shuffled
  obtain ⟨put, -, hhas⟩ := exists_mem_of_forall₂ hputs hw
  exact ⟨put, hhas.gives_put, by simpa [hfailure] using hhas.ended hphase⟩

theorem Flows.diesFirst_of_lost (h : Flows sources passed m) (hfailure : m.failure = none)
    {w : Worker α} (hw : w ∈ m.workers) {known : Bool} (hphase : w.phase = .lost known) :
    w.source.DiesFirst := by
  obtain ⟨puts, hputs, -⟩ := h.shuffled
  obtain ⟨put, -, hhas⟩ := exists_mem_of_forall₂ hputs hw
  exact ⟨put, hhas.gives_put, by simpa [hfailure] using hhas.lost known hphase⟩

/-- The worker of a source that dies never counts itself off. -/
theorem Flows.hasMore_of_diesFirst (h : Flows sources passed m) (hfailure : m.failure = none)
    {source : Source α} (hsource : source ∈ sources) (hdies : source.DiesFirst) :
    m.hasMore = true := by
  obtain ⟨w, hw, rfl⟩ := List.mem_map.mp (h.origins.symm ▸ hsource)
  have hactive : w.isActive = true := by
    simp only [Worker.isActive, bne_iff_ne]
    exact fun hphase => (h.endsFirst_of_ended hfailure hw hphase).not_diesFirst hdies
  have hpos : 0 < m.active := List.countP_pos_iff.mpr ⟨w, hw, hactive⟩
  simp [hasMore, Nat.pos_iff_ne_zero.mp hpos]

open Classical in
noncomputable def deaths (sources : List (Source α)) : Nat :=
  sources.countP fun source => source.DiesFirst

theorem Flows.countP_isKnownLoss_le (h : Flows sources passed m) (hfailure : m.failure = none) :
    m.workers.countP Worker.isKnownLoss ≤ deaths sources := by
  classical
  rw [deaths, ← h.origins, List.countP_map]
  refine List.countP_mono_left fun w hw hknown => ?_
  have hphase : w.phase = .lost true := by simpa [Worker.isKnownLoss] using hknown
  simpa using h.diesFirst_of_lost hfailure hw hphase

theorem Flows.countP_isKnownLoss (h : Flows sources passed m) (hfailure : m.failure = none)
    (hclosed : m.isClosed = true) (htold : m.workers.any Worker.isUnknownLoss = false) :
    m.workers.countP Worker.isKnownLoss = deaths sources := by
  classical
  rw [deaths, ← h.origins, List.countP_map]
  have hover : ∀ w ∈ m.workers, w.phase ≠ .running := by
    simpa [isClosed, Worker.isRunning] using hclosed
  refine List.countP_congr fun w hw => ?_
  simp only [Function.comp_apply, decide_eq_true_eq]
  cases hphase : w.phase with
  | running => exact absurd hphase (hover w hw)
  | ended =>
    have hends := h.endsFirst_of_ended hfailure hw hphase
    simp [Worker.isKnownLoss, hphase, hends.not_diesFirst]
  | lost known =>
    have hdies := h.diesFirst_of_lost hfailure hw hphase
    cases known with
    | true => simp [Worker.isKnownLoss, hphase, hdies]
    | false =>
      have hunknown := List.any_eq_false.mp htold w hw
      simp [Worker.isUnknownLoss, hphase] at hunknown

/-! ## The answers -/

/-- Where all sources finish, the answers are items, then the deaths, and then the end. -/
theorem Runs.exists_reports {capacity patience : Nat}
    (hfinish : ∀ source ∈ sources, source.Finishes)
    (hrun : Runs (ofSources capacity patience sources) n answers m) :
    ∃ (items : List α) (k : Nat), answers = items.map .item ++
        List.replicate (m.workers.countP Worker.isKnownLoss) (.failed .workerDied) ++
        List.replicate k .ended ∧
      (0 < m.workers.countP Worker.isKnownLoss + k → m.isClosed = true ∧ m.queue = []) ∧
      (0 < k → m.workers.any Worker.isUnknownLoss = false) := by
  have hflows := flows_ofSources capacity patience sources
  induction hrun with
  | start =>
    have hnone : (ofSources capacity patience sources).workers.countP Worker.isKnownLoss = 0 := by
      simp [ofSources, List.countP_map, List.countP_eq_zero, Worker.isKnownLoss]
    exact ⟨[], 0, by simp [hnone], by simp [hnone], by simp⟩
  | @moved n answers m₁ m₂ event hbefore hnext ih =>
    obtain ⟨items, k, rfl, hend, -⟩ := ih
    obtain ⟨w, m₀, w', hw, hrunning, hmove, rfl⟩ := exists_move_of_next? hnext
    -- a worker that moves keeps the queue open, so nothing was reported so far
    have hopen : ¬ m₁.isClosed = true := by
      simpa [isClosed] using ⟨w, List.mem_of_getElem? hw, by simp [Worker.isRunning, hrunning]⟩
    have hzero : m₁.workers.countP Worker.isKnownLoss + k = 0 :=
      Nat.eq_zero_of_not_pos fun hpos => hopen (hend hpos).1
    have hstill : (m₀.setWorker event.place w').workers.countP Worker.isKnownLoss = 0 := by
      rw [List.countP_eq_zero]
      intro x hx
      rcases List.mem_or_eq_of_mem_set hx with hmem | rfl
      · exact List.countP_eq_zero.mp (by omega) x (hmove.frame.1 ▸ hmem)
      · cases hmove <;> simp [Worker.isKnownLoss, Worker.leave, hrunning]
    refine ⟨items, 0, ?_, by simp [hstill], by simp⟩
    rw [hstill]
    simp [show k = 0 by omega, show m₁.workers.countP Worker.isKnownLoss = 0 by omega]
  | @answered n answers m₁ m₂ answer hbefore hlook ih =>
    obtain ⟨items, k, rfl, hend, htold⟩ := ih
    have hnone := (hflows.run hbefore).failure_eq_none_of_not_failsFirst
      fun source hsource e => (hfinish source hsource).not_failsFirst
    cases look_of_look_eq hlook with
    | @item a rest hlooked hqueue =>
      have hzero : m₁.workers.countP Worker.isKnownLoss + k = 0 := by
        refine Nat.eq_zero_of_not_pos fun hpos => ?_
        rw [(hend hpos).2] at hqueue
        cases hqueue
      have hknown : m₁.workers.countP Worker.isKnownLoss = 0 := by omega
      have hk : k = 0 := by omega
      exact ⟨items ++ [a], 0, by simp [hknown, hk], by simp [hknown], by simp⟩
    | lost hclosed _ hlost =>
      have hqueue : m₁.queue = [] := by
        cases hqueue : m₁.queue with
        | nil => rfl
        | cons a rest =>
          rw [look_of_queue (Or.inr hnone) hqueue] at hlook
          simp at hlook
      have hk : k = 0 := by
        refine Nat.eq_zero_of_not_pos fun hpos => ?_
        rw [htold hpos] at hlost
        cases hlost
      refine ⟨items, 0, ?_, fun _ => ⟨?_, hqueue⟩, by simp⟩
      · simp [hk, (countP_isUnknownLoss_reported hlost).2, List.replicate_succ']
      · simpa [isClosed, any_isRunning_reported] using hclosed
    | ended hqueue hclosed =>
      refine ⟨items, k + 1, by simp [List.replicate_succ'], fun _ => ⟨hclosed, hqueue⟩, fun _ => ?_⟩
      cases hlost : m₁.workers.any Worker.isUnknownLoss with
      | false => rfl
      | true =>
        rw [look_of_closed (Or.inr hnone) hqueue hclosed] at hlook
        simp [atEnd, hnone, hlost] at hlook
    | raised hfailure => simp [hnone] at hfailure
    | failed hfailure => simp [hnone] at hfailure
  | waited hbefore hlook ih =>
    obtain ⟨items, k, hanswers, hend, htold⟩ := ih
    cases look_of_look_eq hlook with
    | waits => exact ⟨items, k, hanswers, hend, htold⟩

theorem Runs.exists_items_of_not_finishes {capacity patience : Nat}
    (hnever : ∀ source ∈ sources, ∀ e, ¬ source.FailsFirst e)
    (hlasts : ∃ source ∈ sources, ¬ source.Finishes)
    (hrun : Runs (ofSources capacity patience sources) n answers m) :
    ∃ items : List α, answers = items.map .item := by
  have hflows := flows_ofSources capacity patience sources
  have hopen : ∀ {n answers m}, Runs (ofSources capacity patience sources) n answers m →
      m.failure = none ∧ ¬ m.isClosed = true := by
    intro n answers m hrun
    have hnone := (hflows.run hrun).failure_eq_none_of_not_failsFirst hnever
    refine ⟨hnone, fun hclosed => ?_⟩
    obtain ⟨source, hsource, hlasts⟩ := hlasts
    exact hlasts ((hflows.run hrun).finishes_of_closed hclosed hnone source hsource)
  induction hrun with
  | start => exact ⟨[], rfl⟩
  | moved _ _ ih => exact ih
  | waited _ _ ih => exact ih
  | answered hbefore hlook ih =>
    obtain ⟨items, rfl⟩ := ih
    obtain ⟨hnone, hopen⟩ := hopen hbefore
    cases look_of_look_eq hlook with
    | @item a rest => exact ⟨items ++ [a], by simp⟩
    | raised hfailure => simp [hnone] at hfailure
    | failed hfailure => simp [hnone] at hfailure
    | lost hclosed => exact absurd hclosed hopen
    | ended _ hclosed => exact absurd hclosed hopen

theorem deathSticks_of_items (items : List α) (failures : List Failure) :
    DeathSticks (items.map .item ++ failures.map .failed) := by
  induction items with
  | nil =>
    intro before after heq answer hanswer
    have hmem : answer ∈ failures.map Answer.failed := by
      rw [← List.nil_append (failures.map _), ← List.map_nil, heq]
      simp [hanswer]
    obtain ⟨e, -, rfl⟩ := List.mem_map.mp hmem
    exact ⟨e, rfl⟩
  | cons a items ih =>
    intro before after heq
    cases before with
    | nil => simp at heq
    | cons first before =>
      simp only [List.map_cons, List.cons_append, List.cons.injEq] at heq
      exact ih before after heq.2

theorem not_deathSticks (items : List α) {k : Nat} (hk : 0 < k) :
    ¬ DeathSticks (items.map .item ++ (List.replicate k (.failed .workerDied) ++ [.ended])) := by
  intro hsticks
  obtain ⟨k, rfl⟩ := Nat.exists_eq_succ_of_ne_zero (Nat.pos_iff_ne_zero.mp hk)
  obtain ⟨e, he⟩ := hsticks (items.map .item) (List.replicate k (.failed .workerDied) ++ [.ended])
    (by simp [List.replicate_succ]) .ended (by simp)
  cases he

theorem isClosed_of_finished (h : List.Forall₂ Worker.FinishedFor sources m.workers) :
    m.isClosed = true := by
  simp only [isClosed, Bool.not_eq_true', List.any_eq_false, Bool.not_eq_true]
  intro w hw
  obtain ⟨source, -, hfinished⟩ := exists_mem_of_forall₂ h.flip hw
  exact hfinished.stopped

section Dying

variable {source : Source α} (hsource : source ∈ sources) (hdies : source.DiesFirst)
  (capacity patience : Nat)
include hsource hdies

theorem exists_not_deathSticks (hfinish : ∀ source ∈ sources, source.Finishes) :
    ∃ (n : Nat) (answers : List (Answer α)) (m : Merge α),
      Runs (ofSources capacity patience sources) n answers m ∧ ¬ DeathSticks answers := by
  obtain ⟨n, items, m, hrun, hquiet, hover⟩ := exists_runs_all_finished capacity patience hfinish
  have hlost : 0 < m.workers.countP Worker.isUnknownLoss := by
    obtain ⟨w, hw, hfinished⟩ := exists_mem_of_forall₂ hover hsource
    refine List.countP_pos_iff.mpr ⟨w, hw, ?_⟩
    simp [Worker.isUnknownLoss, hfinished.lost hdies]
  obtain ⟨m', hreports⟩ := hquiet.exists_runs_reports (isClosed_of_finished hover)
  exact ⟨_, _, m', hrun.trans hreports, not_deathSticks items hlost⟩

/-- A worker dies, another fails, and all the others are asked to stop. -/
theorem exists_hasMore_of_failsFirst {failing : Source α} (hfailing : failing ∈ sources)
    (hfails : failing.FailsFirst e) : ∃ (n : Nat) (answers : List (Answer α)) (m : Merge α),
      Runs (ofSources capacity patience sources) n answers m ∧ m.isClosed = true ∧ m.queue = [] ∧
        m.hasMore = true := by
  obtain ⟨i, hi⟩ := List.mem_iff_getElem?.mp hsource
  obtain ⟨j, hj⟩ := List.mem_iff_getElem?.mp hfailing
  have hne : i ≠ j := by
    rintro rfl
    rw [hi] at hj
    cases hj
    exact Source.Finishes.not_failsFirst (Or.inr hdies) hfails
  have hquiet : Quiet (ofSources capacity patience sources) :=
    ⟨by simp only [ofSources]; omega, rfl, rfl, rfl⟩
  obtain ⟨n, items, w, hfinished, hrun⟩ :=
    hquiet.exists_runs_finished (i := i) (by simp [ofSources, hi]) (Or.inr hdies)
  have hquiet' : Quiet ((ofSources capacity patience sources).setWorker i w) :=
    ⟨hquiet.capacity, rfl, rfl, rfl⟩
  obtain ⟨n', items', w', hrun'⟩ := hquiet'.exists_runs_failed (i := j)
    (by simp [setWorker, ofSources, hj, List.getElem?_set_ne hne]) hfails
  obtain ⟨n'', items'', m, hrun'', hclosed, hqueue, hkept⟩ := exists_runs_stopped
    (m := (((ofSources capacity patience sources).setWorker i w).record e).setWorker j w') rfl
  refine ⟨_, _, m, (hrun.trans hrun').trans hrun'', hclosed, hqueue, ?_⟩
  have hw : w ∈ m.workers := by
    refine hkept w (List.mem_of_getElem? (i := i) ?_) hfinished.stopped
    have hlt := (List.getElem?_eq_some_iff.mp hi).1
    simp only [setWorker, workers_record]
    rw [List.getElem?_set_ne hne.symm]
    simp [ofSources, hlt]
  have hactive : w.isActive = true := by
    rw [Worker.isActive, hfinished.lost hdies]
    rfl
  have hpos : 0 < m.active := List.countP_pos_iff.mpr ⟨w, hw, hactive⟩
  simp [hasMore, Nat.pos_iff_ne_zero.mp hpos]

end Dying

/-- The death of a worker stands as long as some source keeps the queue open or fails by itself. -/
theorem deathSticks_of_not_finishes {capacity patience : Nat}
    (hlasts : ∃ source ∈ sources, ¬ source.Finishes)
    (hrun : Runs (ofSources capacity patience sources) n answers m) : DeathSticks answers := by
  by_cases hnever : ∀ source ∈ sources, ∀ e, ¬ source.FailsFirst e
  · obtain ⟨items, rfl⟩ := hrun.exists_items_of_not_finishes hnever hlasts
    simpa using deathSticks_of_items items []
  · simp only [not_forall, not_not] at hnever
    obtain ⟨source, hsource, e, hfails⟩ := hnever
    obtain ⟨items, failures, rfl, -⟩ := exists_told hsource hfails
      (flows_ofSources capacity patience sources) ⟨by simp, by simp⟩ hrun
    exact deathSticks_of_items items failures

/-- Some source takes its worker down. The report of such a death stands, in all runs, exactly when
some other source neither ends nor dies; the merge knows that it is over only where that cannot
happen. When all sources end or die, the reader is given every death once and then the end, while
the merge always claims to have more. -/
theorem deaths_stick_iff (capacity patience : Nat) (sources : List (Source α))
    (hdies : ∃ source ∈ sources, source.DiesFirst) :
    ((∀ n answers m, Runs (ofSources capacity patience sources) n answers m →
        DeathSticks answers) ↔ ∃ source ∈ sources, ¬ source.Finishes) ∧
    ((∀ n answers m, Runs (ofSources capacity patience sources) n answers m →
        m.isClosed = true → m.queue = [] → m.hasMore = false) ↔
      (∀ source ∈ sources, ∀ e, ¬ source.FailsFirst e) ∧ ∃ source ∈ sources, ¬ source.Finishes) ∧
    ((∀ source ∈ sources, source.Finishes) →
      ∀ n answers m, Runs (ofSources capacity patience sources) n answers m →
        m.hasMore = true ∧ ∃ (items : List α) (j k : Nat), answers = items.map .item ++
          List.replicate j (.failed .workerDied) ++ List.replicate k .ended ∧
          j ≤ deaths sources ∧ (0 < k → j = deaths sources)) := by
  obtain ⟨source, hsource, hdies⟩ := hdies
  have hflows := flows_ofSources capacity patience sources
  refine ⟨⟨fun hsticks => ?_, fun hlasts n answers m hrun => ?_⟩,
    ⟨fun hover => ⟨fun failing hfailing e hfails => ?_, ?_⟩, ?_⟩,
    fun hfinish n answers m hrun => ?_⟩
  · by_contra hfinish
    simp only [not_exists, not_and, not_not] at hfinish
    obtain ⟨n, answers, m, hrun, hnot⟩ :=
      exists_not_deathSticks hsource hdies capacity patience hfinish
    exact hnot (hsticks n answers m hrun)
  · exact deathSticks_of_not_finishes hlasts hrun
  · obtain ⟨n, answers, m, hrun, hclosed, hqueue, hmore⟩ :=
      exists_hasMore_of_failsFirst hsource hdies capacity patience hfailing hfails
    rw [hover n answers m hrun hclosed hqueue] at hmore
    cases hmore
  · by_contra hfinish
    simp only [not_exists, not_and, not_not] at hfinish
    obtain ⟨n, items, m, hrun, hquiet, hfinished⟩ :=
      exists_runs_all_finished capacity patience hfinish
    have hmore := (hflows.run hrun).hasMore_of_diesFirst hquiet.failure hsource hdies
    rw [hover n _ m hrun (isClosed_of_finished hfinished) hquiet.queue] at hmore
    cases hmore
  · rintro ⟨hnever, failing, hfailing, hlasts⟩ n answers m hrun hclosed -
    have hnone := (hflows.run hrun).failure_eq_none_of_not_failsFirst hnever
    exact absurd ((hflows.run hrun).finishes_of_closed hclosed hnone failing hfailing) hlasts
  · have hreached := hflows.run hrun
    have hnone := hreached.failure_eq_none_of_not_failsFirst
      fun source hsource e => (hfinish source hsource).not_failsFirst
    refine ⟨hreached.hasMore_of_diesFirst hnone hsource hdies, ?_⟩
    obtain ⟨items, k, hanswers, hend, htold⟩ := hrun.exists_reports hfinish
    refine ⟨items, _, k, hanswers, hreached.countP_isKnownLoss_le hnone, fun hk => ?_⟩
    exact hreached.countP_isKnownLoss hnone (hend (by omega)).1 (htold hk)

/-! Pears whose source takes its worker down, alone and beside apples that never end. -/

def dyingPears : Source String
  | 0 => .item (.value "pear")
  | _ => .died

theorem dyingPears_diesFirst : dyingPears.DiesFirst := by
  refine ⟨["pear"], fun i a hi => ?_, rfl⟩
  obtain ⟨hlt, rfl⟩ := List.getElem?_eq_some_iff.mp hi
  obtain rfl : i = 0 := Nat.lt_one_iff.mp hlt
  rfl

theorem endlessPears_not_finishes : ¬ endlessPears.Finishes := by
  rintro (⟨items, -, h⟩ | ⟨items, -, h⟩) <;> cases h

/-- Beside an endless source the reader hears nothing of the death. -/
theorem dying_pears_beside_endless :
    (∀ n answers m, Runs (ofSources 1 0 [dyingPears, endlessPears]) n answers m →
      DeathSticks answers) ∧ ∀ n answers m,
        Runs (ofSources 1 0 [dyingPears, endlessPears]) n answers m → m.isClosed = true →
          m.queue = [] → m.hasMore = false := by
  obtain ⟨hsticks, hover, -⟩ := deaths_stick_iff 1 0 [dyingPears, endlessPears]
    ⟨dyingPears, by simp, dyingPears_diesFirst⟩
  have hlasts : ∃ source ∈ [dyingPears, endlessPears], ¬ source.Finishes :=
    ⟨endlessPears, by simp, endlessPears_not_finishes⟩
  refine ⟨hsticks.mpr hlasts, hover.mpr ⟨?_, hlasts⟩⟩
  intro source hsource e hfails
  rcases List.mem_pair.mp hsource with rfl | rfl
  · exact Source.Finishes.not_failsFirst (Or.inr dyingPears_diesFirst) hfails
  · obtain ⟨items, -, hfailed⟩ := hfails
    cases hfailed

/-- Alone, the death is reported once. The next answer is the end, and there is more, for ever. -/
theorem dying_pears_forgotten : ∃ m,
    Runs (ofSources 1 0 [dyingPears]) 3 [.item "pear", .failed .workerDied, .ended] m ∧
      ¬ DeathSticks [.item "pear", .failed .workerDied, (.ended : Answer String)] ∧
      m.isClosed = true ∧ m.queue = [] ∧ m.hasMore = true := by
  refine ⟨_, (((((Runs.start.moved (e := .take 0) rfl).moved (e := .put 0) rfl).answered rfl).moved
    (e := .take 0) rfl).answered rfl).answered rfl, ?_, rfl, rfl, rfl⟩
  intro hsticks
  obtain ⟨e, he⟩ := hsticks [.item "pear"] [.ended] rfl .ended (by simp)
  cases he

end Merge

end StoredObjects
