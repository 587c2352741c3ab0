import StoredObjects.Proofs.Load.Progress
import StoredObjects.Proofs.Merge.Revealed

/-! # Loads that are merged while they go on

Each worker of a merge is given the objects of one load, and the loads go on at the same time, on
the same stores. Seen from its own store, every load runs as it would alone. What the reader was
given is therefore a shuffle of what the loads alone give, and he can always be brought to the end
of it or to a failure.
-/

namespace StoredObjects

open Load (Loader Progress Schedule)

variable {Object : Type}

structure Loading (Object : Type) where
  world : World
  loads : List (Progress Object)
  merge : Merge Object

namespace Loading

variable {s s' s₁ s₂ : Loading Object} {items items' : List Object} {w₀ w w' u : World}
  {loaders : List (Loader Object)} {schedules : Nat → Schedule}
  {r : Except Failure (List Object)} {i : Nat}

def start (settings : Settings.Load) (loaders : List (Loader Object)) (schedules : Nat → Schedule)
    (w : World) : Loading Object where
  world := w
  loads := loaders.mapIdx fun i l => .loading (l.loadAll (schedules i))
  merge := .ofSettings settings (loaders.map fun _ _ => .ended)

/-- What can happen while the reader is not answered. -/
inductive Moves (s : Loading Object) : Loading Object → Prop where
  | progressed {i : Nat} {p p' : Progress Object} {w' : World} (hp : s.loads[i]? = some p)
      (hmoves : p.Moves s.world w' p') : Moves s { s with world := w', loads := s.loads.set i p' }
  /-- A worker takes what its load gives. -/
  | took {i : Nat} {wk : Merge.Worker Object} {p p' : Progress Object} {pull : Pull Object}
      {m' : Merge Object} (hwk : s.merge.workers[i]? = some wk) (hp : s.loads[i]? = some p)
      (hgives : p.Gives pull p')
      (hnext : (s.merge.setWorker i (wk.reveal pull)).next? (.take i) = some m') :
      Moves s { s with loads := s.loads.set i p', merge := m' }
  | worked {event : Merge.Event} {m' : Merge Object} (hevent : ∀ i, event ≠ .take i)
      (hnext : s.merge.next? event = some m') : Moves s { s with merge := m' }
  | waited {m' : Merge Object} (hlook : s.merge.look = (m', none)) :
      Moves s { s with merge := m' }

/-- The reader is given these objects, while everything moves in any order. -/
inductive Runs (s : Loading Object) : List Object → Loading Object → Prop where
  | start : Runs s [] s
  | moved {items : List Object} {s₁ s₂ : Loading Object} (hrun : Runs s items s₁)
      (hmoves : s₁.Moves s₂) : Runs s items s₂
  | met {items : List Object} {s₁ : Loading Object} {m' : Merge Object} {a : Object}
      (hrun : Runs s items s₁) (hlook : s₁.merge.look = (m', some (.item a))) :
      Runs s (items ++ [a]) { s₁ with merge := m' }

inductive Collects (s : Loading Object) : Except Failure (List Object) → World → Prop where
  | ended {items : List Object} {s' : Loading Object} {m' : Merge Object} (hrun : Runs s items s')
      (hlook : s'.merge.look = (m', some .ended)) : Collects s (.ok items) s'.world
  | failed {items : List Object} {s' : Loading Object} {m' : Merge Object} {e : Failure}
      (hrun : Runs s items s') (hlook : s'.merge.look = (m', some (.failed e))) :
      Collects s (.error e) s'.world

theorem Runs.trans (h : Runs s items s₁) (h' : Runs s₁ items' s₂) :
    Runs s (items ++ items') s₂ := by
  induction h' with
  | start => simpa using h
  | moved _ hmoves ih => exact .moved ih hmoves
  | met _ hlook ih =>
    rw [← List.append_assoc]
    exact .met ih hlook

def Ends (s : Loading Object) : Prop := ∃ r w', s.Collects r w'

theorem Ends.of_runs (h : Runs s items s₁) (hends : s₁.Ends) : s.Ends := by
  obtain ⟨r, w', hcollects⟩ := hends
  cases hcollects with
  | ended hrun hlook => exact ⟨_, _, .ended (h.trans hrun) hlook⟩
  | failed hrun hlook => exact ⟨_, _, .failed (h.trans hrun) hlook⟩

/-! ## One load among the others -/

/-- How a worker and its load stand, where the load alone started with `p₀` on `w₀`. -/
inductive Stage (key : String) (w₀ : World) (p₀ : Progress Object) (failure : Option Failure)
    (w : World) (wk : Merge.Worker Object) : Progress Object → Prop where
  /-- Alone, with the same store, the load would go on from here. -/
  | going {p : Progress Object} {told : List Object} {u : World}
      (hphase : wk.phase = .running) (htold : wk.source.Gives told)
      (htaken : wk.taken = told.length) (hnew : ∀ n, told.length ≤ n → wk.source n = .ended)
      (hstore : u.store key = w.store key) (hcontinues : Progress.Continues w₀ p₀ told u p) :
      Stage key w₀ p₀ failure w wk p
  | drained {told : List Object} {u : World} (hphase : wk.phase = .ended)
      (htold : wk.source.Gives told) (hended : wk.source told.length = .ended)
      (hstore : u.store key = w.store key) (hcomes : Progress.Comes w₀ p₀ u (.ok told)) :
      Stage key w₀ p₀ failure w wk (.giving [])
  | broken {p : Progress Object} {told : List Object} {u : World} {e : Failure}
      (hphase : wk.phase = .ended) (htold : wk.source.Gives told)
      (hfailed : wk.source told.length = .item (.failed e))
      (hcomes : Progress.Comes w₀ p₀ u (.error e)) : Stage key w₀ p₀ failure w wk p
  /-- The worker stopped for the failure of another. -/
  | stopped {p : Progress Object} {told : List Object} (hphase : wk.phase ≠ .running)
      (htold : wk.source.Gives told) (hended : wk.source told.length = .ended)
      (hfailure : failure.isSome = true) : Stage key w₀ p₀ failure w wk p

section Stage

variable {key : String} {p₀ p p' : Progress Object} {failure failure' : Option Failure}
  {wk wk' : Merge.Worker Object} {m m' m₁ : Merge Object} {pull : Pull Object}

theorem Stage.congr (h : Stage key w₀ p₀ failure w wk p) (hstore : w'.store key = w.store key)
    (hfailure : failure.isSome = true → failure'.isSome = true) :
    Stage key w₀ p₀ failure' w' wk p := by
  cases h with
  | going hphase htold htaken hnew hsame hcontinues =>
    exact .going hphase htold htaken hnew (hsame.trans hstore.symm) hcontinues
  | drained hphase htold hended hsame hcomes =>
    exact .drained hphase htold hended (hsame.trans hstore.symm) hcomes
  | broken hphase htold hfailed hcomes => exact .broken hphase htold hfailed hcomes
  | stopped hphase htold hended hsome => exact .stopped hphase htold hended (hfailure hsome)

theorem Stage.progressed (h : Stage key w₀ p₀ failure w wk p) (hfit : p.Fit key w)
    (hmoves : p.Moves w w' p') : Stage key w₀ p₀ failure w' wk p' := by
  cases h with
  | @going _ told u hphase htold htaken hnew hstore hcontinues =>
    obtain ⟨u', hmoves', hleft⟩ := hmoves.congr hfit hstore.symm
    exact .going hphase htold htaken hnew hleft.symm (hcontinues.moved hmoves')
  | drained => cases hmoves
  | broken hphase htold hfailed hcomes => exact .broken hphase htold hfailed hcomes
  | stopped hphase htold hended hsome => exact .stopped hphase htold hended hsome

theorem Stage.source_taken (h : Stage key w₀ p₀ failure w wk p) (hrunning : wk.phase = .running) :
    wk.source wk.taken = .ended := by
  cases h with
  | going _ _ htaken hnew => exact hnew _ htaken.ge
  | drained hphase => simp [hrunning] at hphase
  | broken hphase => simp [hrunning] at hphase
  | stopped hphase => exact absurd hrunning hphase

/-- A worker that goes on by itself takes nothing from its load. It stops only when it is asked to,
which is for a failure. -/
theorem Stage.worked (h : Stage key w₀ p₀ m.failure w wk p) (hrunning : wk.phase = .running)
    (hstopped : m.cancelled = true ∨ m.abandoned = true → m.failure.isSome = true)
    (hworks : Merge.Works m wk m₁ wk') : Stage key w₀ p₀ m₁.failure w wk' p := by
  cases h with
  | going hphase htold htaken hnew hstore hcontinues =>
    have hended := hnew _ (Nat.le_refl _)
    cases hworks with
    | put => exact .going hphase htold htaken hnew hstore hcontinues
    | stopped hc => exact .stopped (by simp [Merge.Worker.leave]) htold hended (hstopped (.inl hc))
    | aborted ha => exact .stopped (by simp [Merge.Worker.leave]) htold hended (hstopped (.inr ha))
  | drained hphase => simp [hrunning] at hphase
  | broken hphase => simp [hrunning] at hphase
  | stopped hphase => exact absurd hrunning hphase

theorem Stage.took (h : Stage key w₀ p₀ m.failure w wk p) (hrunning : wk.phase = .running)
    (hgives : p.Gives pull p') (hreceive : m.receive? i wk pull = some m') :
    ∃ (m₁ : Merge Object) (wk' : Merge.Worker Object), m' = m₁.setWorker i wk' ∧
      m₁.workers = m.workers ∧
      (m.failure.isSome = true → m₁.failure.isSome = true) ∧
      Stage key w₀ p₀ m₁.failure w wk' p' := by
  cases h with
  | @going _ told u hphase htold htaken hnew hstore hcontinues =>
    have hsource : (wk.told pull).source told.length = pull := htaken ▸ wk.source_told_taken pull
    have hgave : (wk.told pull).source.Gives told := htold.update htaken.ge pull
    cases pull with
    | item item =>
      cases item with
      | value a =>
        refine ⟨m, { wk.told (.item (.value a)) with hand := some a },
          (Option.some.inj hreceive).symm, rfl, id, ?_⟩
        refine .going hphase (hgave.append_singleton hsource) ?_ (fun n hn => ?_) hstore
          (hcontinues.gave hgives)
        · simp [Merge.Worker.told, htaken]
        · rw [List.length_append, List.length_singleton] at hn
          have hne : n ≠ wk.taken := by omega
          exact (Function.update_of_ne hne _ _).trans (hnew n (by omega))
      | failed e =>
        exact ⟨m.record e, (wk.told (.item (.failed e))).leave .ended,
          (Option.some.inj hreceive).symm, Merge.workers_record m e,
          fun _ => Merge.isSome_failure_record m e,
          .broken rfl hgave hsource (hcontinues.failed hgives)⟩
      | stalled => cases hgives
    | ended =>
      have hcomes := hcontinues.ended hgives
      obtain rfl : p' = .giving [] := by cases hgives <;> rfl
      exact ⟨m, (wk.told .ended).leave .ended, (Option.some.inj hreceive).symm, rfl, id,
        .drained rfl hgave hsource hstore hcomes⟩
    | died => cases hgives
  | drained hphase => simp [hrunning] at hphase
  | broken hphase => simp [hrunning] at hphase
  | stopped hphase => exact absurd hrunning hphase

end Stage

/-! ## All loads together -/

structure Stages (loaders : List (Loader Object)) (schedules : Nat → Schedule) (w₀ w : World)
    (failure : Option Failure) (workers : List (Merge.Worker Object))
    (loads : List (Progress Object)) : Prop where
  workers_length : workers.length = loaders.length
  loads_length : loads.length = loaders.length
  stage : ∀ i (l : Loader Object) wk p,
    loaders[i]? = some l → workers[i]? = some wk → loads[i]? = some p →
    p.Fit l.binding.store w ∧
      Stage l.binding.store w₀ (.loading (l.loadAll (schedules i))) failure w wk p

def Apart (loaders : List (Loader Object)) : Prop :=
  loaders.Pairwise fun l l' => l.binding.store ≠ l'.binding.store

section Stages

variable {failure failure' : Option Failure} {workers : List (Merge.Worker Object)}
  {loads : List (Progress Object)} {l : Loader Object} {wk wk' : Merge.Worker Object}
  {p p' : Progress Object}

theorem Apart.store_ne (h : Apart loaders) {i j : Nat} {l l' : Loader Object} (hij : i ≠ j)
    (hl : loaders[i]? = some l) (hl' : loaders[j]? = some l') :
    l'.binding.store ≠ l.binding.store := by
  obtain ⟨hi, rfl⟩ := List.getElem?_eq_some_iff.mp hl
  obtain ⟨hj, rfl⟩ := List.getElem?_eq_some_iff.mp hl'
  have hpair := List.pairwise_iff_getElem.mp h
  rcases Nat.lt_or_gt_of_ne hij with hlt | hgt
  · exact (hpair i j hi hj hlt).symm
  · exact hpair j i hj hi hgt

theorem Stages.exists_of_worker (h : Stages loaders schedules w₀ w failure workers loads)
    (hwk : workers[i]? = some wk) : ∃ l p, loaders[i]? = some l ∧ loads[i]? = some p := by
  have hlt := (List.getElem?_eq_some_iff.mp hwk).1
  have hworkers := h.workers_length
  have hloads := h.loads_length
  exact ⟨_, _, List.getElem?_eq_getElem (by omega), List.getElem?_eq_getElem (by omega)⟩

theorem Stages.exists_of_load (h : Stages loaders schedules w₀ w failure workers loads)
    (hp : loads[i]? = some p) : ∃ l wk, loaders[i]? = some l ∧ workers[i]? = some wk := by
  have hlt := (List.getElem?_eq_some_iff.mp hp).1
  have hworkers := h.workers_length
  have hloads := h.loads_length
  exact ⟨_, _, List.getElem?_eq_getElem (by omega), List.getElem?_eq_getElem (by omega)⟩

/-- What one load does, in its own store, is nothing to the others. -/
theorem Stages.set (h : Stages loaders schedules w₀ w failure workers loads)
    (hapart : Apart loaders) (hl : loaders[i]? = some l) (hfit : p'.Fit l.binding.store w')
    (hstage : Stage l.binding.store w₀ (.loading (l.loadAll (schedules i))) failure' w' wk' p')
    (hstore : ∀ key, key ≠ l.binding.store → w'.store key = w.store key)
    (hfailure : failure.isSome = true → failure'.isSome = true) :
    Stages loaders schedules w₀ w' failure' (workers.set i wk') (loads.set i p') := by
  refine ⟨by rw [List.length_set, h.workers_length], by rw [List.length_set, h.loads_length],
    fun j l' wk p hl' hwk hp => ?_⟩
  by_cases hij : i = j
  · subst hij
    obtain rfl : l = l' := Option.some.inj (hl.symm.trans hl')
    have hlt := (List.getElem?_eq_some_iff.mp hl).1
    rw [List.getElem?_set_self (h.workers_length ▸ hlt)] at hwk
    rw [List.getElem?_set_self (h.loads_length ▸ hlt)] at hp
    cases hwk
    cases hp
    exact ⟨hfit, hstage⟩
  · rw [List.getElem?_set_ne hij] at hwk hp
    have hsame := hstore _ (hapart.store_ne hij hl hl')
    obtain ⟨hfit', hstage'⟩ := h.stage j l' wk p hl' hwk hp
    exact ⟨hfit'.congr hsame.symm, hstage'.congr hsame hfailure⟩

end Stages

/-- The reader was given the objects `passed`. -/
structure Invariant (loaders : List (Loader Object)) (schedules : Nat → Schedule) (w₀ : World)
    (passed : List Object) (s : Loading Object) : Prop where
  flows : Merge.Flows (s.merge.workers.map Merge.Worker.source) passed s.merge
  stages : Stages loaders schedules w₀ s.world s.merge.failure s.merge.workers s.loads
  elsewhere : ∀ key, (∀ l ∈ loaders, l.binding.store ≠ key) → s.world.store key = w₀.store key

theorem invariant_start (settings : Settings.Load) (hw : w.InMemory) :
    Invariant loaders schedules w [] (start settings loaders schedules w) := by
  have hflows := Merge.flows_ofSources settings.mergeCapacity settings.mergeTimeout
    (loaders.map fun _ => (fun _ => .ended : Source Object))
  refine ⟨hflows.origins.symm ▸ hflows, ⟨?_, ?_, fun i l wk p hl hwk hp => ?_⟩, fun _ _ => rfl⟩
  · simp [start, Merge.ofSettings, Merge.ofSources]
  · simp [start]
  · obtain rfl : { source := fun _ => .ended } = wk := by
      simp only [start, Merge.ofSettings, Merge.ofSources, List.getElem?_map, hl, Option.map_some,
        Option.some.injEq] at hwk
      exact hwk
    obtain rfl : .loading (l.loadAll (schedules i)) = p := by
      simpa [start, hl] using hp
    exact ⟨Progress.fit_start hw (schedules i), .going rfl (Source.gives_nil _) rfl (fun _ _ => rfl)
      rfl (Progress.continues_start w _)⟩

section Invariant

variable {passed : List Object} (hapart : Apart loaders)

theorem Stages.no_unknownLoss {workers : List (Merge.Worker Object)}
    {loads : List (Progress Object)} (h : Stages loaders schedules w₀ w none workers loads) :
    workers.any Merge.Worker.isUnknownLoss = false := by
  rw [List.any_eq_false]
  intro wk hwk hlost
  obtain ⟨i, hi⟩ := List.mem_iff_getElem?.mp hwk
  obtain ⟨l, p, hl, hp⟩ := h.exists_of_worker hi
  have hphase : wk.phase = .lost false := by simpa [Merge.Worker.isUnknownLoss] using hlost
  cases (h.stage i l wk p hl hi hp).2 with
  | going hrunning => simp [hphase] at hrunning
  | drained hended => simp [hphase] at hended
  | broken hended => simp [hphase] at hended
  | stopped _ _ _ hsome => cases hsome

theorem Invariant.looked (h : Invariant loaders schedules w₀ passed s) {m' : Merge Object}
    {answer : Option (Merge.Answer Object)} (hlook : s.merge.look = (m', answer)) :
    Invariant loaders schedules w₀ (passed ++ Merge.given answer.toList) { s with merge := m' } ∧
      m'.workers = s.merge.workers := by
  have hlooks := Merge.look_of_look_eq hlook
  have hworkers : m'.workers = s.merge.workers := by
    cases hlooks with
    | lost _ hfailure hlost =>
      have hstages := h.stages
      rw [hfailure] at hstages
      rw [hstages.no_unknownLoss] at hlost
      cases hlost
    | _ => rfl
  have hfailure : m'.failure = s.merge.failure := by
    cases hlooks <;> rfl
  have hflows := h.flows.looked hlooks
  refine ⟨⟨hflows.origins.symm ▸ hflows, ?_, h.elsewhere⟩, hworkers⟩
  rw [hworkers, hfailure]
  exact h.stages

include hapart in
theorem Invariant.moved (h : Invariant loaders schedules w₀ passed s) (hmoves : s.Moves s') :
    Invariant loaders schedules w₀ passed s' := by
  cases hmoves with
  | @progressed i p p' w' hp hmoves =>
    obtain ⟨l, wk, hl, hwk⟩ := h.stages.exists_of_load hp
    obtain ⟨hfit, hstage⟩ := h.stages.stage i l wk p hl hwk hp
    have hset := h.stages.set hapart hl (hmoves.fit hfit) (hstage.progressed hfit hmoves)
      (fun key hne => hmoves.store_eq hfit hne) id
    rw [set_of_getElem? hwk] at hset
    refine ⟨h.flows, hset, fun key hkey => ?_⟩
    have hne := (hkey l (List.mem_of_getElem? hl)).symm
    exact (hmoves.store_eq hfit hne).trans (h.elsewhere key hkey)
  | @took i wk p p' pull m' hwk hp hgives hnext =>
    obtain ⟨hrunning, hhand, hreceive⟩ := Merge.of_next?_take_reveal hwk hnext
    obtain ⟨l, wk', hl, hwk'⟩ := h.stages.exists_of_load hp
    obtain rfl : wk = wk' := Option.some.inj (hwk.symm.trans hwk')
    obtain ⟨hfit, hstage⟩ := h.stages.stage i l wk p hl hwk hp
    have hflows := (h.flows.revealed hwk hrunning hhand (hstage.source_taken hrunning) pull).moved
      hnext
    obtain ⟨m₁, wk', rfl, hworkers, hfailure, hstage'⟩ := hstage.took hrunning hgives hreceive
    have hset := h.stages.set hapart hl (hgives.fit hfit) hstage' (fun _ _ => rfl) hfailure
    rw [← hworkers] at hset
    exact ⟨hflows.origins.symm ▸ hflows, hset, h.elsewhere⟩
  | worked hevent hnext =>
    have hflows := h.flows.moved hnext
    obtain ⟨wk, m₁, wk', hwk, hrunning, hworks, rfl⟩ := Merge.exists_works_of_next? hevent hnext
    obtain ⟨l, p, hl, hp⟩ := h.stages.exists_of_worker hwk
    obtain ⟨hfit, hstage⟩ := h.stages.stage _ l wk p hl hwk hp
    have hset := h.stages.set hapart hl hfit (hstage.worked hrunning h.flows.stopped hworks)
      (fun _ _ => rfl) (by cases hworks <;> exact id)
    have hworkers : m₁.workers = s.merge.workers := by cases hworks <;> rfl
    rw [set_of_getElem? hp, ← hworkers] at hset
    exact ⟨hflows.origins.symm ▸ hflows, hset, h.elsewhere⟩
  | waited hlook => simpa using (h.looked hlook).1

include hapart in
theorem Invariant.run (h : Invariant loaders schedules w₀ passed s) (hrun : Runs s items s') :
    Invariant loaders schedules w₀ (passed ++ items) s' := by
  induction hrun with
  | start => simpa using h
  | moved _ hmoves ih => exact ih.moved hapart hmoves
  | met _ hlook ih =>
    rw [← List.append_assoc]
    simpa using (ih.looked hlook).1

/-! ## What the reader meets in the end -/

/-- At the end of the merge every load has given all that it comes to. -/
theorem Invariant.exists_of_ended (h : Invariant loaders schedules w₀ passed s)
    {m' : Merge Object} (hlook : s.merge.look = (m', some .ended)) :
    ∃ lists, Shuffle lists passed ∧ lists.length = loaders.length ∧
      ∀ i (l : Loader Object) list, loaders[i]? = some l → lists[i]? = some list →
        ∃ u, u.store l.binding.store = s.world.store l.binding.store ∧
          Progress.Comes w₀ (.loading (l.loadAll (schedules i))) u (.ok list) := by
  cases Merge.look_of_look_eq hlook with
  | ended hqueue hclosed hfailure =>
    obtain ⟨lists, hshuffle, hover⟩ := h.flows.over hclosed hfailure
    rw [hqueue, List.append_nil] at hshuffle
    rw [List.forall₂_map_left_iff] at hover
    refine ⟨lists, hshuffle, hover.length_eq.symm.trans h.stages.workers_length,
      fun i l list hl hlist => ?_⟩
    obtain ⟨wk, hwk, hgives, hstop⟩ := exists_of_forall₂ hover.flip hlist
    obtain ⟨-, p, -, hp⟩ := h.stages.exists_of_worker hwk
    have hno : ∀ a, wk.source list.length ≠ .item (.value a) := by
      intro a
      rcases hstop with hstop | hstop <;> simp [hstop]
    cases (h.stages.stage i l wk p hl hwk hp).2 with
    | going hrunning =>
      have hstopped : ∀ wk ∈ s.merge.workers, wk.phase ≠ .running := by
        simpa [Merge.isClosed, Merge.Worker.isRunning] using hclosed
      exact absurd hrunning (hstopped wk (List.mem_of_getElem? hwk))
    | @drained told u hphase htold hended hstore hcomes =>
      obtain rfl := hgives.eq htold hno (by simp [hended])
      exact ⟨u, hstore, hcomes⟩
    | @broken p told u e hphase htold hfailed hcomes =>
      obtain rfl := hgives.eq htold hno (by simp [hfailed])
      rcases hstop with hstop | hstop <;> simp [hfailed] at hstop
    | stopped _ _ _ hsome => simp [hfailure] at hsome

/-- A failure that the reader meets is one that some load comes to. -/
theorem Invariant.exists_of_failed (h : Invariant loaders schedules w₀ passed s)
    {m' : Merge Object} {e : Failure} (hlook : s.merge.look = (m', some (.failed e))) :
    ∃ i, ∃ l : Loader Object, ∃ u, loaders[i]? = some l ∧
      Progress.Comes w₀ (.loading (l.loadAll (schedules i))) u (.error e) := by
  have hfailure : s.merge.failure = some e := by
    cases Merge.look_of_look_eq hlook with
    | raised hfailure => exact hfailure
    | failed hfailure => exact hfailure
    | lost _ hfailure hlost =>
      have hstages := h.stages
      rw [hfailure] at hstages
      rw [hstages.no_unknownLoss] at hlost
      cases hlost
  obtain ⟨source, hsource, items, hitems, hfailed⟩ := h.flows.failed e hfailure
  obtain ⟨wk, hwk, rfl⟩ := List.mem_map.mp hsource
  obtain ⟨i, hi⟩ := List.mem_iff_getElem?.mp hwk
  obtain ⟨l, p, hl, hp⟩ := h.stages.exists_of_worker hi
  cases (h.stages.stage i l wk p hl hi hp).2 with
  | @broken p told u e' hphase htold hfailed' hcomes =>
    obtain rfl := hitems.eq htold (by simp [hfailed]) (by simp [hfailed'])
    obtain rfl : e = e' := by simpa [hfailed] using hfailed'
    exact ⟨i, l, u, hl, hcomes⟩
  | going hphase htold htaken hnew =>
    exact absurd ⟨items, hitems, hfailed⟩ (htold.not_failsFirst (hnew _ (Nat.le_refl _)) e)
  | drained hphase htold hended =>
    exact absurd ⟨items, hitems, hfailed⟩ (htold.not_failsFirst hended e)
  | stopped hphase htold hended =>
    exact absurd ⟨items, hitems, hfailed⟩ (htold.not_failsFirst hended e)

/-! ## The reader is answered -/

theorem ends_or_look (s : Loading Object) : s.Ends ∨
    (∃ m' a, s.merge.look = (m', some (.item a))) ∨ ∃ m', s.merge.look = (m', none) := by
  rcases hlook : s.merge.look with ⟨m', answer⟩
  cases answer with
  | none => exact Or.inr (Or.inr ⟨m', rfl⟩)
  | some answer =>
    cases answer with
    | item a => exact Or.inr (Or.inl ⟨m', a, rfl⟩)
    | ended => exact Or.inl ⟨_, _, .ended .start hlook⟩
    | failed e => exact Or.inl ⟨_, _, .failed .start hlook⟩

/-- A reader who finds an object in the queue is given it, unless he meets a failure. -/
theorem Invariant.exists_met (h : Invariant loaders schedules w₀ passed s) {a : Object}
    {rest : List Object} (hqueue : s.merge.queue = a :: rest) : s.Ends ∨ ∃ m',
      Runs s [a] { s with merge := m' } ∧
      Invariant loaders schedules w₀ (passed ++ [a]) { s with merge := m' } ∧ m'.queue = rest ∧
      m'.workers = s.merge.workers := by
  rcases s.ends_or_look with hends | ⟨m', b, hlook⟩ | ⟨m', hlook⟩
  · exact Or.inl hends
  · have hlooks := Merge.look_of_look_eq hlook
    obtain ⟨h', hworkers⟩ := h.looked hlook
    have hitem : b = a ∧ m'.queue = rest := by
      cases hlooks with
      | item _ hitem =>
        rw [hqueue] at hitem
        exact ⟨(List.cons.inj hitem).1.symm, (List.cons.inj hitem).2.symm⟩
    obtain ⟨rfl, hrest⟩ := hitem
    exact Or.inr ⟨m', Runs.start.met hlook, by simpa using h', hrest, hworkers⟩
  · cases Merge.look_of_look_eq hlook with
    | waits _ hempty =>
      rw [hqueue] at hempty
      cases hempty

/-- The reader makes room until a worker can put what it has in hand into the queue. -/
theorem Invariant.exists_put (h : Invariant loaders schedules w₀ passed s)
    {wk : Merge.Worker Object} (hwk : s.merge.workers[i]? = some wk)
    (hrunning : wk.phase = .running) {a : Object} (hhand : wk.hand = some a) :
    s.Ends ∨ ∃ items s', Runs s items s' ∧ s'.world = s.world ∧ s'.loads = s.loads ∧
      s'.merge.workers = s.merge.workers.set i { wk with hand := none } := by
  induction hqueue : s.merge.queue generalizing s passed with
  | nil =>
    have hroom : s.merge.queue.length < s.merge.capacity := by
      simpa [hqueue] using h.flows.capacity
    exact Or.inr ⟨[], _, .moved .start (.worked (by simp)
      (Merge.next?_put hwk hrunning hhand hroom)), rfl, rfl, rfl⟩
  | cons b rest ih =>
    rcases h.exists_met hqueue with hends | ⟨m', hfirst, h', hrest, hworkers⟩
    · exact Or.inl hends
    · rcases ih h' (hworkers ▸ hwk) hrest with hends | ⟨items, s', hrun, hworld, hloads, hset⟩
      · exact Or.inl (.of_runs hfirst hends)
      · exact Or.inr ⟨_, s', hfirst.trans hrun, hworld, hloads, hset.trans (by rw [hworkers])⟩

def running (s : Loading Object) : Nat := s.merge.workers.countP Merge.Worker.isRunning

theorem running_set {wk wk' : Merge.Worker Object} (hwk : s.merge.workers[i]? = some wk)
    (hs' : s'.merge.workers = s.merge.workers.set i wk') :
    s'.running + (if wk.isRunning then 1 else 0) = s.running + if wk'.isRunning then 1 else 0 := by
  unfold running
  rw [hs']
  exact countP_set_add wk' hwk

theorem running_lt_of_leave {wk wk' : Merge.Worker Object} (hwk : s.merge.workers[i]? = some wk)
    (hrunning : wk.phase = .running)
    (hs' : s'.merge.workers = s.merge.workers.set i (wk'.leave .ended)) :
    s'.running < s.running := by
  have hcount := running_set hwk hs'
  have hbefore : wk.isRunning = true := by simp [Merge.Worker.isRunning, hrunning]
  have hafter : (wk'.leave .ended).isRunning = false := rfl
  rw [hbefore, hafter] at hcount
  simp only [if_true, Bool.false_eq_true, if_false] at hcount
  omega

include hapart in
/-- What a load comes to alone, its worker can be brought to take. -/
theorem Invariant.exists_fewer_of_comes {p : Progress Object} (hcomes : Progress.Comes w p w' r)
    (h : Invariant loaders schedules w₀ passed s) (hworld : s.world = w)
    (hp : s.loads[i]? = some p) {wk : Merge.Worker Object} (hwk : s.merge.workers[i]? = some wk)
    (hrunning : wk.phase = .running) (hhand : wk.hand = none) :
    s.Ends ∨ ∃ items s', Runs s items s' ∧ s'.running < s.running := by
  have hlt := (List.getElem?_eq_some_iff.mp hp).1
  have hlt' := (List.getElem?_eq_some_iff.mp hwk).1
  induction hcomes generalizing s passed wk with
  | @moved w w₁ w₂ p p' r hmoves hrest ih =>
    subst hworld
    have hstep : s.Moves { s with world := w₁, loads := s.loads.set i p' } := .progressed hp hmoves
    have hfirst := Runs.start.moved hstep
    rcases ih (h.moved hapart hstep) rfl (List.getElem?_set_self hlt) hwk hrunning hhand
      (by simpa using hlt) hlt' with hends | ⟨items, s', hrun, hfewer⟩
    · exact Or.inl (.of_runs hfirst hends)
    · exact Or.inr ⟨_, s', hfirst.trans hrun, hfewer⟩
  | @gave w w₁ p p' a r hgives hrest ih =>
    have hnext := Merge.next?_take_reveal hwk hrunning hhand (.item (.value a))
    have hstep := Moves.took hwk hp hgives hnext
    have h₁ := h.moved hapart hstep
    -- the object goes from the hand of the worker into the queue before the next is taken
    rcases h₁.exists_put (List.getElem?_set_self hlt') hrunning rfl with
      hends | ⟨items, s₂, hput, hworld₂, hloads₂, hworkers₂⟩
    · exact Or.inl (.of_runs (Runs.start.moved hstep) hends)
    · have hbefore := (Runs.start.moved hstep).trans hput
      have hset : s₂.merge.workers = s.merge.workers.set i
          { wk.told (.item (.value a)) with hand := none } := by
        rw [hworkers₂]
        exact List.set_set ..
      have hat : s₂.loads[i]? = some p' := hloads₂ ▸ List.getElem?_set_self hlt
      have hat' : s₂.merge.workers[i]? =
          some { wk.told (.item (.value a)) with hand := none } :=
        hset ▸ List.getElem?_set_self hlt'
      have hcount := running_set hwk hset
      have hsame : ({ wk.told (.item (.value a)) with hand := none } :
          Merge.Worker Object).isRunning = wk.isRunning := rfl
      rw [hsame] at hcount
      rcases ih (h₁.run hapart hput) (hworld₂.trans hworld) hat hat' hrunning rfl
        (List.getElem?_eq_some_iff.mp hat).1 (List.getElem?_eq_some_iff.mp hat').1 with
        hends | ⟨items', s', hrun, hfewer⟩
      · exact Or.inl (.of_runs hbefore hends)
      · exact Or.inr ⟨_, s', hbefore.trans hrun, by omega⟩
  | ended hgives =>
    have hnext := Merge.next?_take_reveal hwk hrunning hhand .ended
    exact Or.inr ⟨[], _, Runs.start.moved (.took hwk hp hgives hnext),
      running_lt_of_leave hwk hrunning rfl⟩
  | @failed w p p' e hgives =>
    have hnext := Merge.next?_take_reveal hwk hrunning hhand (.item (.failed e))
    have hworkers : ((s.merge.record e).setWorker i
        ((wk.told (.item (.failed e))).leave .ended)).workers =
          s.merge.workers.set i ((wk.told (.item (.failed e))).leave .ended) := by
      simp [Merge.setWorker, Merge.workers_record]
    exact Or.inr ⟨[], _, Runs.start.moved (.took hwk hp hgives hnext),
      running_lt_of_leave hwk hrunning hworkers⟩

include hapart in
theorem Invariant.exists_fewer (h : Invariant loaders schedules w₀ passed s)
    {wk : Merge.Worker Object} (hwk : s.merge.workers[i]? = some wk)
    (hrunning : wk.phase = .running) (hhand : wk.hand = none) :
    s.Ends ∨ ∃ items s', Runs s items s' ∧ s'.running < s.running := by
  obtain ⟨l, p, hl, hp⟩ := h.stages.exists_of_worker hwk
  obtain ⟨w', r, hcomes⟩ := (h.stages.stage i l wk p hl hwk hp).1.exists_comes
  exact h.exists_fewer_of_comes hapart hcomes rfl hp hwk hrunning hhand

theorem Invariant.ends_of_closed (h : Invariant loaders schedules w₀ passed s)
    (hclosed : s.merge.isClosed = true) : s.Ends := by
  induction hqueue : s.merge.queue generalizing s passed with
  | nil =>
    rcases s.ends_or_look with hends | ⟨m', a, hlook⟩ | ⟨m', hlook⟩
    · exact hends
    · cases Merge.look_of_look_eq hlook with
      | item _ hitem =>
        rw [hqueue] at hitem
        cases hitem
    · cases Merge.look_of_look_eq hlook with
      | waits _ _ hopen =>
        rw [hclosed] at hopen
        cases hopen
  | cons a rest ih =>
    rcases h.exists_met hqueue with hends | ⟨m', hfirst, h', hrest, hworkers⟩
    · exact hends
    · refine .of_runs hfirst (ih h' ?_ hrest)
      unfold Merge.isClosed at hclosed ⊢
      rwa [hworkers]

include hapart in
/-- Whatever has happened, the reader can be brought to the end or to a failure. -/
theorem Invariant.ends (h : Invariant loaders schedules w₀ passed s) : s.Ends := by
  -- one worker after the other is brought to its end
  induction hn : s.running using Nat.strong_induction_on generalizing s passed with
  | _ n ih =>
    subst hn
    cases hclosed : s.merge.isClosed with
    | true => exact h.ends_of_closed hclosed
    | false =>
      obtain ⟨wk, hmem, hrunning⟩ : ∃ wk ∈ s.merge.workers, wk.isRunning = true := by
        simpa [Merge.isClosed] using hclosed
      have hphase : wk.phase = .running := by simpa [Merge.Worker.isRunning] using hrunning
      obtain ⟨i, hwk⟩ := List.mem_iff_getElem?.mp hmem
      cases hhand : wk.hand with
      | none =>
        rcases h.exists_fewer hapart hwk hphase hhand with hends | ⟨items, s', hrun, hfewer⟩
        · exact hends
        · exact .of_runs hrun (ih _ hfewer (h.run hapart hrun) rfl)
      | some a =>
        rcases h.exists_put hwk hphase hhand with hends | ⟨items, s₁, hput, -, -, hset⟩
        · exact hends
        · have hat : s₁.merge.workers[i]? = some { wk with hand := none } :=
            hset ▸ List.getElem?_set_self (List.getElem?_eq_some_iff.mp hwk).1
          have hcount := running_set hwk hset
          have hsame : ({ wk with hand := none } : Merge.Worker Object).isRunning =
            wk.isRunning := rfl
          rw [hsame] at hcount
          rcases (h.run hapart hput).exists_fewer hapart hat hphase rfl with
            hends | ⟨items', s', hrun, hfewer⟩
          · exact .of_runs hput hends
          · exact .of_runs (hput.trans hrun)
              (ih _ (by omega) (h.run hapart (hput.trans hrun)) rfl)

end Invariant

end Loading

end StoredObjects
