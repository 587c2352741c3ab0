import StoredObjects.Merge

/-! # Runs of merges

The workers of a merge move in any order, and the reader looks whenever he likes.
-/

namespace StoredObjects

universe u v

variable {α : Type u}

namespace Merge

variable {m m' m₁ m₂ : Merge α} {w w' : Worker α}

/-! ## Steps -/

inductive Move (m : Merge α) (w : Worker α) : Merge α → Worker α → Prop where
  | took {a : α} (hhand : w.hand = none) (h : w.source w.taken = .item (.value a)) :
      Move m w m { w with taken := w.taken + 1, hand := some a }
  | failed {e : Failure} (hhand : w.hand = none) (h : w.source w.taken = .item (.failed e)) :
      Move m w (m.record e) (({ w with taken := w.taken + 1 } : Worker α).leave .ended)
  | drained (hhand : w.hand = none) (h : w.source w.taken = .ended) :
      Move m w m (({ w with taken := w.taken + 1 } : Worker α).leave .ended)
  | died (hhand : w.hand = none) (h : w.source w.taken = .died) :
      Move m w m (({ w with taken := w.taken + 1 } : Worker α).leave (.lost false))
  | put {a : α} (hhand : w.hand = some a) (hroom : m.queue.length < m.capacity) :
      Move m w { m with queue := m.queue ++ [a] } { w with hand := none }
  | stopped (h : m.cancelled = true) : Move m w m (w.leave .ended)
  | aborted (h : m.abandoned = true) : Move m w m (w.leave (.lost false))

theorem exists_move_of_next? {e : Event} (h : m.next? e = some m') :
    ∃ w m₁ w', m.workers[e.place]? = some w ∧ w.phase = .running ∧ Move m w m₁ w' ∧
      m' = m₁.setWorker e.place w' := by
  unfold next? at h
  split at h
  · rename_i w hw
    split at h
    · rename_i hrunning
      have hphase : w.phase = .running := by simpa [Worker.isRunning] using hrunning
      suffices hmoved : ∃ m₁ w', Move m w m₁ w' ∧ m' = m₁.setWorker e.place w' by
        obtain ⟨m₁, w', hmove, rfl⟩ := hmoved
        exact ⟨w, m₁, w', hw, hphase, hmove, rfl⟩
      cases e with
      | take i =>
        simp only [move?, Option.isNone_iff_eq_none] at h
        split at h
        · rename_i hhand
          unfold take? at h
          split at h <;> cases h
          · exact ⟨_, _, .took hhand ‹_›, rfl⟩
          · exact ⟨_, _, .failed hhand ‹_›, rfl⟩
          · exact ⟨_, _, .drained hhand ‹_›, rfl⟩
          · exact ⟨_, _, .died hhand ‹_›, rfl⟩
        · cases h
      | put i =>
        simp only [move?] at h
        split at h
        · rename_i a hhand
          split at h
          · rename_i hroom
            cases h
            exact ⟨_, _, .put hhand hroom, rfl⟩
          · cases h
        · cases h
      | stop i =>
        simp only [move?] at h
        split at h
        · cases h
          exact ⟨_, _, .stopped ‹_›, rfl⟩
        · cases h
      | abort i =>
        simp only [move?] at h
        split at h
        · cases h
          exact ⟨_, _, .aborted ‹_›, rfl⟩
        · cases h
    · cases h
  · cases h

theorem isSome_failure_record (m : Merge α) (e : Failure) : (m.record e).failure.isSome = true := by
  unfold record
  split
  · assumption
  · rfl

theorem workers_record (m : Merge α) (e : Failure) : (m.record e).workers = m.workers := by
  unfold record
  split <;> rfl

theorem queue_record (m : Merge α) (e : Failure) : (m.record e).queue = m.queue := by
  unfold record
  split <;> rfl

theorem Move.frame (h : Move m w m₁ w') : m₁.workers = m.workers ∧ m₁.capacity = m.capacity ∧
    m₁.waiting = m.waiting ∧ w'.source = w.source := by
  cases h with
  | @failed e =>
    refine ⟨workers_record m e, ?_, ?_, rfl⟩
    · unfold record
      split <;> rfl
    · unfold record
      split <;> rfl
  | _ => exact ⟨rfl, rfl, rfl, rfl⟩

theorem Move.failure_eq (h : Move m w m₁ w') (hsome : m.failure.isSome = true) :
    m₁.failure = m.failure := by
  cases h with
  | failed => simp [record, hsome]
  | _ => rfl

inductive Look (m : Merge α) : Merge α → Option (Answer α) → Prop where
  | raised {e : Failure} (hfailure : m.failure = some e) (hwaiting : m.waiting = false) :
      Look m m.shutdown (some (.failed e))
  | item {a : α} {rest : List α} (hlooked : m.waiting = true ∨ m.failure = none)
      (hqueue : m.queue = a :: rest) :
      Look m { m with queue := rest, waiting := false } (some (.item a))
  | failed {e : Failure} (hfailure : m.failure = some e) :
      Look m { m with waiting := false } (some (.failed e))
  | lost (hclosed : m.isClosed = true) (hfailure : m.failure = none)
      (hlost : m.workers.any Worker.isUnknownLoss = true) :
      Look m { m with workers := reported m.workers, waiting := false } (some (.failed .workerDied))
  | ended (hqueue : m.queue = []) (hclosed : m.isClosed = true) (hfailure : m.failure = none) :
      Look m { m with waiting := false } (some .ended)
  | waits (hlooked : m.waiting = true ∨ m.failure = none) (hqueue : m.queue = [])
      (hclosed : m.isClosed = false) : Look m { m with waiting := true } none

theorem look_of_raised {e : Failure} (hfailure : m.failure = some e)
    (hwaiting : m.waiting = false) : m.look = (m.shutdown, some (.failed e)) := by
  simp [look, hfailure, hwaiting]

section Looked

variable (hlooked : m.waiting = true ∨ m.failure = none)
include hlooked

theorem look_of_queue {a : α} {rest : List α} (hqueue : m.queue = a :: rest) :
    m.look = ({ m with queue := rest, waiting := false }, some (.item a)) := by
  rcases hlooked with h | h <;> simp [look, h, hqueue]

theorem look_of_open (hqueue : m.queue = []) (hclosed : m.isClosed = false) :
    m.look = ({ m with waiting := true }, none) := by
  rcases hlooked with h | h <;> simp [look, h, hqueue, hclosed]

theorem look_of_closed (hqueue : m.queue = []) (hclosed : m.isClosed = true) :
    m.look = ({ m.atEnd.1 with waiting := false }, some m.atEnd.2) := by
  rcases hlooked with h | h <;> simp [look, h, hqueue, hclosed]

end Looked

theorem look_look (m : Merge α) : Look m m.look.1 m.look.2 := by
  by_cases hlooked : m.waiting = true ∨ m.failure = none
  · cases hqueue : m.queue with
    | cons a rest =>
      rw [look_of_queue hlooked hqueue]
      exact .item hlooked hqueue
    | nil =>
      cases hclosed : m.isClosed with
      | false =>
        rw [look_of_open hlooked hqueue hclosed]
        exact .waits hlooked hqueue hclosed
      | true =>
        rw [look_of_closed hlooked hqueue hclosed]
        cases hfailure : m.failure with
        | some e =>
          have hend : m.atEnd = (m, .failed e) := by simp [atEnd, hfailure]
          rw [hend]
          exact .failed hfailure
        | none =>
          cases hlost : m.workers.any Worker.isUnknownLoss with
          | true =>
            have hend : m.atEnd = ({ m with workers := reported m.workers },
                .failed .workerDied) := by simp [atEnd, hfailure, hlost]
            rw [hend]
            exact .lost hclosed hfailure hlost
          | false =>
            have hend : m.atEnd = (m, .ended) := by simp [atEnd, hfailure, hlost]
            rw [hend]
            exact .ended hqueue hclosed hfailure
  · obtain ⟨hwaiting, hfailure⟩ := not_or.mp hlooked
    obtain ⟨e, he⟩ := Option.ne_none_iff_exists'.mp hfailure
    have hwaiting : m.waiting = false := by simpa using hwaiting
    rw [look_of_raised he hwaiting]
    exact .raised he hwaiting

theorem look_of_look_eq {answer : Option (Answer α)} (hlook : m.look = (m', answer)) :
    Look m m' answer := by
  have h := look_look m
  rwa [hlook] at h

theorem map_reported {β : Type v} {g : Worker α → β}
    (hg : ∀ w, w.isUnknownLoss = true → g { w with phase := .lost true } = g w)
    (workers : List (Worker α)) : (reported workers).map g = workers.map g := by
  induction workers with
  | nil => rfl
  | cons w workers ih =>
    unfold reported
    split
    · rename_i hlost
      rw [List.map_cons, List.map_cons, hg w hlost]
    · rw [List.map_cons, List.map_cons, ih]

/-! ## Runs -/

/-- The workers make `n` moves, in any order, while a patient reader is given these answers. -/
inductive Runs (m : Merge α) : Nat → List (Answer α) → Merge α → Prop where
  | start : Runs m 0 [] m
  | moved {n : Nat} {answers : List (Answer α)} {m₁ m₂ : Merge α} {e : Event}
      (h : Runs m n answers m₁) (hmove : m₁.next? e = some m₂) : Runs m (n + 1) answers m₂
  | answered {n : Nat} {answers : List (Answer α)} {m₁ m₂ : Merge α} {answer : Answer α}
      (h : Runs m n answers m₁) (hlook : m₁.look = (m₂, some answer)) :
      Runs m n (answers ++ [answer]) m₂
  | waited {n : Nat} {answers : List (Answer α)} {m₁ m₂ : Merge α} (h : Runs m n answers m₁)
      (hlook : m₁.look = (m₂, none)) : Runs m n answers m₂

theorem Runs.trans {n n' : Nat} {answers answers' : List (Answer α)} (h : Runs m n answers m₁)
    (h' : Runs m₁ n' answers' m₂) : Runs m (n + n') (answers ++ answers') m₂ := by
  induction h' with
  | start => simpa using h
  | moved _ hmove ih => exact .moved ih hmove
  | answered _ hlook ih =>
    rw [← List.append_assoc]
    exact .answered ih hlook
  | waited _ hlook ih => exact .waited ih hlook

def Answer.item? : Answer α → Option α
  | .item a => some a
  | .ended | .failed _ => none

def given (answers : List (Answer α)) : List α := answers.filterMap Answer.item?

@[simp] theorem given_nil : given ([] : List (Answer α)) = [] := rfl

@[simp] theorem given_append (answers answers' : List (Answer α)) :
    given (answers ++ answers') = given answers ++ given answers' := List.filterMap_append

@[simp] theorem given_item (a : α) : given [.item a] = [a] := rfl

@[simp] theorem given_ended : given ([.ended] : List (Answer α)) = [] := rfl

@[simp] theorem given_failed (e : Failure) : given ([.failed e] : List (Answer α)) = [] := rfl

@[simp] theorem given_map_item (items : List α) : given (items.map .item) = items := by
  simp [given, List.filterMap_map, Function.comp_def, Answer.item?]

@[simp] theorem given_map_failed (failures : List Failure) :
    given (failures.map (.failed : Failure → Answer α)) = [] := by
  simp [given, List.filterMap_map, Function.comp_def, Answer.item?]

@[simp] theorem given_replicate_ended (k : Nat) :
    given (List.replicate k (.ended : Answer α)) = [] := by
  induction k with
  | zero => rfl
  | succ k ih => exact ih

end Merge

end StoredObjects
