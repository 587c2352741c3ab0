import Mathlib.Algebra.Order.BigOperators.Group.List
import Mathlib.Algebra.Order.Ring.Nat
import StoredObjects.Proofs.Load.Agreement

/-! # Streams that are drained

To drain a stream is to read it to its end while its parts move in a fixed order. The moves that are
allowed for an object, and the objects that are allowed for, are enough: what is drained is what
some reader collects.
-/

namespace StoredObjects

namespace Load

variable {Object : Type}

namespace Stream

variable {s s' s₁ : Stream Object} {n k : Nat} {taken : List Object}
  {answer : Except Failure (Option Object)}

/-! ## The moves before an answer -/

/-- A bound on the moves before an answer. -/
def effort (s : Stream Object) : Nat := s.weight - 3 * s.reading.length

theorem effort_add (s : Stream Object) : s.effort + 3 * s.reading.length = s.weight := by
  simp only [effort, weight]
  omega

theorem reading_collected (s : Stream Object) : s.collected.reading = s.reading := by
  simp only [Stream.collected]
  split <;> rfl

theorem reading_accept (s : Stream Object) (raw : Document) :
    (s.accept raw).reading = s.reading := by
  unfold accept
  split <;> rfl

/-- What a move takes from the reading weighs more than what becomes of it. -/
theorem Move.reads {e : Event} (h : Move s e s') : s'.reading = s.reading ∨
    ∃ item, s.reading = item :: s'.reading ∧ s'.weight + 4 ≤ s.weight := by
  cases h with
  | broken hf hreading =>
    refine Or.inr ⟨_, hreading, ?_⟩
    simp only [weight, record, hf, hreading, Feeder.weight, List.length_cons]
    omega
  | halted hf hreading =>
    refine Or.inr ⟨_, hreading, ?_⟩
    simp only [weight, hf, hreading, Feeder.weight, List.length_cons]
    omega
  | @accepted raw rest hf hreading =>
    refine Or.inr ⟨.value raw, by rw [reading_accept, hreading], ?_⟩
    have hrest : ({ s with reading := rest } : Stream Object).weight + 11 = s.weight := by
      simp only [weight, hreading, List.length_cons]
      omega
    have hw := weight_accept { s with reading := rest } raw
    have hfeeder : s.feeder.weight = 2 := by rw [hf]; rfl
    dsimp only at hw
    omega
  | worked hf hadv => exact Or.inl hadv.frame.1
  | advanced ht hadv => exact Or.inl hadv.frame.1
  | resumed => exact Or.inl (reading_collected s)
  | collected => exact Or.inl (reading_collected s)
  | _ => exact Or.inl rfl

theorem Move.effort_lt {e : Event} (h : Move s e s') (he : e ≠ .wake) : s'.effort < s.effort := by
  have hlt := h.weight_lt he
  have hs := effort_add s
  have hs' := effort_add s'
  rcases h.reads with hreading | ⟨item, hreading, hweight⟩
  · rw [hreading] at hs'
    omega
  · rw [hreading, List.length_cons] at hs
    omega

/-- Where a part can move, one is found that does, and the reader need not look again for it. -/
theorem exists_findSome?_moves {e : Event} (hmove : s.next? e = some s') (he : e ≠ .wake) :
    ∃ e' s₁, s.moves.findSome? s.next? = some s₁ ∧ s.next? e' = some s₁ ∧ e' ≠ .wake := by
  let parts : List Event := (List.range s.tasks.length).map Event.abort ++
    (List.range s.tasks.length).map Event.leave ++ [.work, .collect, .read] ++
    (List.range s.tasks.length).map Event.task
  have hmoves : s.moves = parts ++ [.wake] := rfl
  have hplace : ∀ {i : Nat} {t : Task Object}, s.tasks[i]? = some t → i < s.tasks.length :=
    fun h => (List.getElem?_eq_some_iff.mp h).1
  have hmem : e ∈ parts := by
    cases move_of_next? hmove with
    | advanced ht => simp [parts, hplace ht]
    | left ht => simp [parts, hplace ht]
    | aborted _ ht => simp [parts, hplace ht]
    | woke => exact absurd rfl he
    | _ => simp [parts]
  obtain ⟨s₁, hs₁⟩ : ∃ s₁, parts.findSome? s.next? = some s₁ := by
    rw [← Option.isSome_iff_exists, List.findSome?_isSome_iff]
    exact ⟨e, hmem, by simp [hmove]⟩
  obtain ⟨e', he', hnext⟩ := List.exists_of_findSome?_eq_some hs₁
  refine ⟨e', s₁, ?_, hnext, ?_⟩
  · rw [hmoves, List.findSome?_append, hs₁, Option.some_or]
  · rintro rfl
    simp [parts] at he'

theorem Fit.exists_moved (h : Fit s) (hnext : s.next = (s₁, none)) :
    ∃ s₂, s₁.moves.findSome? s₁.next? = some s₂ ∧ Fit s₂ ∧ s₂.effort < s.effort := by
  have hfit := h.next hnext
  cases reads_of_next hnext with
  | waits _ hqueue hclosed =>
    obtain ⟨e, s₂, hmove, he⟩ := hfit.exists_move hqueue hclosed
    obtain ⟨e', s₂, hfind, hmove, he⟩ := exists_findSome?_moves hmove he
    have hmove := move_of_next? hmove
    exact ⟨s₂, hfind, hfit.moved hmove, hmove.effort_lt he⟩

/-- The reader is answered within the moves that are left. -/
theorem Fit.exists_pullWithin (h : Fit s) (hn : s.next.2 = none → s.effort ≤ n) :
    ∃ s' answer, s.pullWithin n = (s', some answer) := by
  induction n generalizing s with
  | zero =>
    rcases hnext : s.next with ⟨s₁, _ | answer⟩
    · obtain ⟨s₂, -, -, hlt⟩ := h.exists_moved hnext
      have hle := hn (by rw [hnext])
      omega
    · exact ⟨s₁, answer, hnext⟩
  | succ n ih =>
    rcases hnext : s.next with ⟨s₁, _ | answer⟩
    · obtain ⟨s₂, hfind, hfit, hlt⟩ := h.exists_moved hnext
      have hle := hn (by rw [hnext])
      obtain ⟨s', answer, hpull⟩ := ih hfit fun _ => by omega
      exact ⟨s', answer, by simp only [pullWithin, hnext, hfind, hpull]⟩
    · exact ⟨s₁, answer, by simp only [pullWithin, hnext]⟩

theorem Fit.exists_pull (h : Fit s) : ∃ s' answer, s.pull = (s', some answer) := by
  refine h.exists_pullWithin fun hwaits => ?_
  rcases hnext : s.next with ⟨s₁, answer⟩
  obtain rfl : answer = none := by simpa [hnext] using hwaits
  cases reads_of_next hnext with
  | waits hpeeked hqueue =>
    have htasks : (s.tasks.map Task.weight).sum ≤ 6 * s.tasks.length := by
      have hle := List.sum_le_card_nsmul (s.tasks.map Task.weight) 6 (by
        intro weight hweight
        obtain ⟨t, -, rfl⟩ := List.mem_map.mp hweight
        cases t <;> simp [Task.weight])
      simpa [Nat.mul_comm] using hle
    have hfeeder : s.feeder.weight ≤ 9 := by
      cases s.feeder with
      | working t => cases t <;> simp [Feeder.weight, Task.weight]
      | _ => simp [Feeder.weight]
    simp only [effort, weight, patience, hpeeked, hqueue, List.length_nil, Option.elim_none]
    omega

theorem runs_of_pullWithin (hrun : Runs s k taken s₁)
    (hpull : s₁.pullWithin n = (s', some answer)) :
    ∃ k' s₂, Runs s k' taken s₂ ∧ s₂.next = (s', some answer) := by
  induction n generalizing k s₁ with
  | zero => exact ⟨k, s₁, hrun, hpull⟩
  | succ n ih =>
    rcases hnext : s₁.next with ⟨s₂, _ | answer'⟩
    · simp only [pullWithin, hnext] at hpull
      split at hpull
      · rename_i s₃ hfind
        obtain ⟨e, -, hmove⟩ := List.exists_of_findSome?_eq_some hfind
        have hwaited := hrun.waited hnext
        by_cases he : e = .wake
        · exact ih (hwaited.woke (he ▸ hmove)) hpull
        · exact ih (hwaited.moved he hmove) hpull
      · cases hpull
    · simp only [pullWithin, hnext] at hpull
      exact ⟨k, s₁, hrun, hnext.trans hpull⟩

/-! ## The objects before the end -/

def pending (s : Stream Object) : Nat :=
  s.reading.length + s.parts.countP Task.isAtWork + s.queue.length + s.peeked.elim 0 fun _ => 1

theorem Advance.pending_le {t t' : Task Object} (h : Advance s t s₁ t') :
    [t'].countP Task.isAtWork + s₁.queue.length ≤ [t].countP Task.isAtWork + s.queue.length := by
  cases h with
  | delivered =>
    change 0 + (s.queue ++ [_]).length ≤ 1 + s.queue.length
    rw [List.length_append, List.length_singleton]
    omega
  | _ => simp [Task.isAtWork, record]

theorem countP_own_feederAfter (t : Task Object) :
    (feederAfter t).own.countP Task.isAtWork = [t].countP Task.isAtWork := by
  cases t <;> rfl

theorem countP_isAtWork_collected (s : Stream Object) :
    s.collected.tasks.countP Task.isAtWork = s.tasks.countP Task.isAtWork := by
  have hkept : (s.tasks.filter fun t => !t.isOver).countP Task.isAtWork =
      s.tasks.countP Task.isAtWork := by
    rw [List.countP_filter]
    exact List.countP_congr fun t _ => by cases t <;> simp [Task.isAtWork, Task.isOver]
  simp only [Stream.collected]
  split <;> exact hkept

theorem pending_collected (s : Stream Object) : s.collected.pending = s.pending := by
  have hkept := s.countP_isAtWork_collected
  simp only [Stream.collected] at hkept ⊢
  split <;> simp_all [pending, parts, record]

theorem Move.pending_le {e : Event} (h : Move s e s') : s'.pending ≤ s.pending := by
  cases h with
  | through hf => simp [pending, parts, hf, Feeder.own]
  | broken hf hreading => simp [pending, parts, hf, hreading, Feeder.own, record]
  | halted hf hreading => simp [pending, parts, hf, hreading, Feeder.own]
  | accepted hf hreading =>
    unfold accept
    split <;>
    · simp [pending, parts, hf, hreading, Feeder.own, Task.isAtWork, List.countP_cons]
      omega
  | @worked t t' s₁ hf hadv =>
    have hle := hadv.pending_le
    obtain ⟨hreading, -, htasks, hpeeked, -⟩ := hadv.frame
    simp only [pending, parts, hf, hreading, htasks, hpeeked, List.countP_append,
      countP_own_feederAfter]
    simp only [Feeder.own]
    omega
  | resumed hf =>
    rw [← pending_collected s]
    simp [pending, parts, feeder_collected, hf, Feeder.own]
  | collected => exact (pending_collected s).le
  | closed hf htasks => simp [pending, parts, hf, htasks, Feeder.own]
  | @advanced i t t' s₁ ht hadv =>
    have hle := hadv.pending_le
    obtain ⟨hreading, hfeeder, htasks, hpeeked, -⟩ := hadv.frame
    have hset := countP_set_add (p := Task.isAtWork) t' ht
    simp only [List.countP_singleton] at hle
    simp only [pending, parts, hreading, hfeeder, htasks, hpeeked, List.countP_append]
    omega
  | @left i t t' ht hleft =>
    have hset := countP_set_add (p := Task.isAtWork) t' ht
    have hidle : t'.isAtWork = false := by
      cases t <;> cases hleft <;> rfl
    simp only [hidle, Bool.false_eq_true, if_false] at hset
    simp only [pending, parts, List.countP_append]
    omega
  | @aborted i t hf ht hlive =>
    have hset := countP_set_add (p := Task.isAtWork) Task.ended ht
    have hidle : (Task.ended : Task Object).isAtWork = false := rfl
    simp only [hidle, Bool.false_eq_true, if_false] at hset
    simp only [pending, parts, List.countP_append]
    omega
  | woke => rfl

/-- Every object that is taken was pending at the start. -/
theorem Runs.pending_le (h : Runs s k taken s') : taken.length + s'.pending ≤ s.pending := by
  induction h with
  | start => simp
  | moved hrun he hmove ih =>
    have hle := (move_of_next? hmove).pending_le
    omega
  | took hrun hnext ih =>
    rw [List.length_append, List.length_singleton]
    cases reads_of_next hnext with
    | seen hpeeked =>
      simp only [pending, parts, hpeeked, Option.elim_some, Option.elim_none] at ih ⊢
      omega
    | queued hpeeked hqueue =>
      simp only [pending, parts, hpeeked, hqueue, List.length_cons, Option.elim_none] at ih ⊢
      omega
  | waited hrun hnext ih =>
    cases reads_of_next hnext
    exact ih
  | woke hrun hmove ih =>
    have hle := (move_of_next? hmove).pending_le
    omega

/-! ## To the end -/

inductive Drains (s : Stream Object) : List (Item Object) → Prop where
  | all (objects : List Object) (h : s.Collects (.ok objects)) : Drains s (objects.map .value)
  | some (objects : List Object) {e : Failure} (h : s.Collects (.error e)) :
      Drains s (objects.map .value ++ [.failed e])

theorem Drains.took {object : Object} {items : List (Item Object)} (hrun : Runs s k [object] s')
    (h : s'.Drains items) : s.Drains (.value object :: items) := by
  cases h with
  | all objects h => exact .all (object :: objects) (hrun.collects h)
  | some objects h => exact .some (object :: objects) (hrun.collects h)

theorem Fit.drainWithin (h : Fit s) (hn : s.pending < n) : s.Drains (s.drainWithin n).2 := by
  induction n generalizing s with
  | zero => omega
  | succ n ih =>
    obtain ⟨s', answer, hpull⟩ := h.exists_pull
    obtain ⟨k, s₁, hrun, hnext⟩ := runs_of_pullWithin .start hpull
    cases answer with
    | error e =>
      simp only [drainWithin, hpull]
      exact .some [] (hrun.collects (.failed hnext))
    | ok object? =>
      cases object? with
      | none =>
        simp only [drainWithin, hpull]
        exact .all [] (hrun.collects (.ended hnext))
      | some object =>
        simp only [drainWithin, hpull]
        have htook := hrun.took hnext
        have hle := htook.pending_le
        refine .took htook (ih (htook.fit h) ?_)
        rw [List.nil_append, List.length_singleton] at hle
        omega

theorem Fit.drains (h : Fit s) : s.Drains s.drain.2 := by
  refine h.drainWithin ?_
  have hown : s.feeder.own.countP Task.isAtWork ≤ 1 := by
    cases s.feeder <;> simp [Feeder.own, List.countP_singleton]
    split <;> simp
  have htasks := List.countP_le_length (p := Task.isAtWork) (l := s.tasks)
  have hpeeked : (s.peeked.elim 0 fun _ => 1) ≤ 1 := by
    cases s.peeked <;> simp
  simp only [pending, parts, List.countP_append]
  omega

end Stream

end Load

end StoredObjects
