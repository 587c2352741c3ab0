import StoredObjects.Proofs.Merge.Flow

/-! # Sources that come to light

What a source will give need not be settled before it is asked. As long as a worker has not asked,
its source can be told apart from no other that gave the same so far, and its answer can be put in
when it is due.
-/

namespace StoredObjects

universe u

variable {α : Type u}

namespace Source

variable {source : Source α} {items items' : List α} {pull : Pull α} {n : Nat}

theorem Gives.update (h : source.Gives items) (hn : items.length ≤ n) (pull : Pull α) :
    Gives (Function.update source n pull) items := by
  intro i a hi
  have hlt := (List.getElem?_eq_some_iff.mp hi).1
  have hne : i ≠ n := by omega
  rw [Function.update_of_ne hne]
  exact h i a hi

theorem Gives.eq (h : source.Gives items) (h' : source.Gives items')
    (hstop : ∀ a, source items.length ≠ .item (.value a))
    (hstop' : ∀ a, source items'.length ≠ .item (.value a)) : items = items' := by
  have hlength := h.length_eq h' hstop hstop'
  refine List.ext_getElem hlength fun i hi hi' => ?_
  have hgives := h i _ (List.getElem?_eq_getElem hi)
  rw [h' i _ (List.getElem?_eq_getElem hi')] at hgives
  simpa using hgives.symm

theorem Gives.not_failsFirst (h : source.Gives items) (hended : source items.length = .ended)
    (e : Failure) : ¬ source.FailsFirst e := by
  rintro ⟨items', hgives, hfailed⟩
  have hlength := h.length_eq hgives (by simp [hended]) (by simp [hfailed])
  rw [hlength, hfailed] at hended
  cases hended

end Source

namespace Merge

variable {m m' : Merge α} {w : Worker α} {sources : List (Source α)} {passed : List α} {i : Nat}

/-- The worker's source gives `pull` when it is asked next. -/
def Worker.reveal (w : Worker α) (pull : Pull α) : Worker α :=
  { w with source := Function.update w.source w.taken pull }

def Worker.told (w : Worker α) (pull : Pull α) : Worker α :=
  { w.reveal pull with taken := w.taken + 1 }

theorem Worker.source_told_taken (w : Worker α) (pull : Pull α) :
    (w.told pull).source w.taken = pull := Function.update_self ..

/-! ## The moves of a worker -/

inductive Works (m : Merge α) (w : Worker α) : Merge α → Worker α → Prop where
  | put {a : α} (hhand : w.hand = some a) :
      Works m w { m with queue := m.queue ++ [a] } { w with hand := none }
  | stopped (h : m.cancelled = true) : Works m w m (w.leave .ended)
  | aborted (h : m.abandoned = true) : Works m w m (w.leave (.lost false))

theorem exists_works_of_next? {event : Event} (hevent : ∀ i, event ≠ .take i)
    (h : m.next? event = some m') : ∃ w m₁ w', m.workers[event.place]? = some w ∧
      w.phase = .running ∧ Works m w m₁ w' ∧ m' = m₁.setWorker event.place w' := by
  unfold next? at h
  split at h
  · rename_i w hw
    split at h
    · rename_i hrunning
      suffices hworks : ∃ m₁ w', Works m w m₁ w' ∧ m' = m₁.setWorker event.place w' by
        obtain ⟨m₁, w', hworks, rfl⟩ := hworks
        exact ⟨w, m₁, w', hw, by simpa [Worker.isRunning] using hrunning, hworks, rfl⟩
      cases event with
      | take i => exact absurd rfl (hevent i)
      | put i =>
        simp only [move?] at h
        split at h
        · rename_i a hhand
          split at h
          · cases h
            exact ⟨_, _, .put hhand, rfl⟩
          · cases h
        · cases h
      | stop i =>
        simp only [move?] at h
        split at h
        · cases h
          exact ⟨_, _, .stopped ‹_›, rfl⟩
        · cases h
      | abort i =>
        simp only [move?] at h
        split at h
        · cases h
          exact ⟨_, _, .aborted ‹_›, rfl⟩
        · cases h
    · cases h
  · cases h

theorem next?_put (hw : m.workers[i]? = some w) (hrunning : w.phase = .running) {a : α}
    (hhand : w.hand = some a) (hroom : m.queue.length < m.capacity) : m.next? (.put i) =
      some { m.setWorker i { w with hand := none } with queue := m.queue ++ [a] } := by
  simp [next?, Event.place, hw, Worker.isRunning, hrunning, move?, hhand, hroom]

def receive? (m : Merge α) (i : Nat) (w : Worker α) (pull : Pull α) : Option (Merge α) :=
  match pull with
  | .item (.value a) => some (m.setWorker i { w.told pull with hand := some a })
  | .item (.failed e) => some ((m.record e).setWorker i ((w.told pull).leave .ended))
  | .item .stalled => none
  | .ended => some (m.setWorker i ((w.told pull).leave .ended))
  | .died => some (m.setWorker i ((w.told pull).leave (.lost false)))

theorem setWorker_setWorker (m : Merge α) (i : Nat) (w w' : Worker α) :
    (m.setWorker i w).setWorker i w' = m.setWorker i w' := by
  simp [setWorker]

theorem record_setWorker (m : Merge α) (i : Nat) (w : Worker α) (e : Failure) :
    (m.setWorker i w).record e = (m.record e).setWorker i w := by
  unfold record setWorker
  split <;> rfl

/-- A worker with nothing in hand takes what its source turns out to give. -/
theorem next?_take_reveal (hw : m.workers[i]? = some w) (hrunning : w.phase = .running)
    (hhand : w.hand = none) (pull : Pull α) :
    (m.setWorker i (w.reveal pull)).next? (.take i) = m.receive? i w pull := by
  have hlt := (List.getElem?_eq_some_iff.mp hw).1
  have hsource : (w.reveal pull).source (w.reveal pull).taken = pull := w.source_told_taken pull
  have hat : (m.setWorker i (w.reveal pull)).workers[i]? = some (w.reveal pull) := by
    simp [setWorker, hlt]
  have hisRunning : (w.reveal pull).isRunning = true := by
    simp [Worker.reveal, Worker.isRunning, hrunning]
  have hempty : (w.reveal pull).hand = none := hhand
  simp only [next?, Event.place, hat, hisRunning, if_true, move?, hempty, Option.isNone_none, take?,
    hsource]
  cases pull with
  | item item =>
    cases item with
    | value a => exact congrArg some (m.setWorker_setWorker i _ _)
    | failed e =>
      have hrecord := congrArg
        (fun m : Merge α => m.setWorker i ((w.told (.item (.failed e))).leave .ended))
        (m.record_setWorker i (w.reveal (.item (.failed e))) e)
      exact congrArg some (hrecord.trans ((m.record e).setWorker_setWorker i _ _))
    | stalled => rfl
  | ended => exact congrArg some (m.setWorker_setWorker i _ _)
  | died => exact congrArg some (m.setWorker_setWorker i _ _)

theorem of_next?_take_reveal (hw : m.workers[i]? = some w) {pull : Pull α}
    (h : (m.setWorker i (w.reveal pull)).next? (.take i) = some m') :
    w.phase = .running ∧ w.hand = none ∧ m.receive? i w pull = some m' := by
  have hlt := (List.getElem?_eq_some_iff.mp hw).1
  have hat : (m.setWorker i (w.reveal pull)).workers[i]? = some (w.reveal pull) := by
    simp [setWorker, hlt]
  have hphase : w.phase = .running ∧ w.hand = none := by
    simp only [next?, Event.place, hat] at h
    split at h
    · rename_i hrunning
      simp only [move?] at h
      split at h
      · rename_i hhand
        exact ⟨by simpa [Worker.reveal, Worker.isRunning] using hrunning,
          by simpa [Worker.reveal] using hhand⟩
      · cases h
    · cases h
  exact ⟨hphase.1, hphase.2, next?_take_reveal hw hphase.1 hphase.2 pull ▸ h⟩

/-! ## What flows through the merge -/

/-- To put in the next answer of a source changes nothing about what went through the merge. -/
theorem Flows.revealed (h : Flows sources passed m) (hw : m.workers[i]? = some w)
    (hrunning : w.phase = .running) (hhand : w.hand = none) (hnew : w.source w.taken = .ended)
    (pull : Pull α) :
    Flows (sources.set i (w.reveal pull).source) passed (m.setWorker i (w.reveal pull)) := by
  obtain ⟨puts, hputs, hshuffle⟩ := h.shuffled
  obtain ⟨put, hput, hhas⟩ := exists_of_forall₂ hputs hw
  have hgives : w.source.Gives put := by simpa [hhand] using hhas.gives
  have htaken : w.taken = put.length := by simpa [hhand] using hhas.asked hrunning
  refine ⟨h.capacity, ?_, ⟨puts, ?_, hshuffle⟩, fun e he => ?_, h.stopped⟩
  · rw [← h.origins]
    exact List.map_set
  · have hrevealed : (w.reveal pull).HasPut m.failure put := by
      refine ⟨?_, fun _ => by simpa [Worker.reveal, hhand] using htaken, hhas.taken_le,
        fun hended => ?_, fun known hlost => ?_⟩
      · simpa [Worker.reveal, hhand] using hgives.update htaken.ge pull
      · exact absurd (hrunning.symm.trans hended) (by simp)
      · exact absurd (hrunning.symm.trans hlost) (by simp)
    have hset := forall₂_set hputs i hrevealed
    rwa [set_of_getElem? hput] at hset
  · -- the failure came from a source that had been asked for it
    obtain ⟨source, hsource, hfails⟩ := h.failed e he
    obtain ⟨j, hj⟩ := List.mem_iff_getElem?.mp hsource
    have hne : i ≠ j := by
      rintro rfl
      rw [← h.origins, List.getElem?_map, hw] at hj
      obtain rfl := Option.some.inj hj
      exact hgives.not_failsFirst (htaken ▸ hnew) e hfails
    refine ⟨source, List.mem_iff_getElem?.mpr ⟨j, ?_⟩, hfails⟩
    rw [List.getElem?_set_ne hne]
    exact hj

end Merge

end StoredObjects
