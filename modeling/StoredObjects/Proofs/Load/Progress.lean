import StoredObjects.Merge
import StoredObjects.Proofs.Load.Alone
import StoredObjects.Proofs.Store.Locality

/-! # Loads in progress

A full load whose objects are taken one by one makes its calls first, then perhaps opens a reading,
and gives its objects while that goes on. All this time it sees and changes one store only: whatever
happens elsewhere, it moves as it would alone, and comes to what the load alone can come to.
-/

namespace StoredObjects

namespace Load

variable {Object : Type}

inductive Progress (Object : Type) where
  | loading (rest : Program (Option Report × Except Failure (Full Object)))
  /-- A lazy load opens its reading. -/
  | opening (rest : Program (Stream Object))
  | streaming (s : Stream Object)
  /-- These objects are there and still to be given. -/
  | giving (objects : List Object)

namespace Progress

variable {w w' w'' u u' w₀ : World} {p p' p₀ : Progress Object} {key key' : String}
  {r : Except Failure (List Object)} {pull : Pull Object} {told : List Object} {a : Object}
  {e : Failure}

inductive Moves : World → Progress Object → World → Progress Object → Prop where
  | called {w w' : World} {rest rest' : Program (Option Report × Except Failure (Full Object))}
      (hstep : rest.step? w = some (rest', w')) : Moves w (.loading rest) w' (.loading rest')
  | loaded {w : World} {report : Option Report} {objects : List Object} :
      Moves w (.loading (.done (report, .ok (.loaded objects)))) w (.giving objects)
  | begun {w : World} {report : Option Report} {start : Program (Stream Object)} :
      Moves w (.loading (.done (report, .ok (.lazy start)))) w (.opening start)
  | opens {w w' : World} {rest rest' : Program (Stream Object)}
      (hstep : rest.step? w = some (rest', w')) : Moves w (.opening rest) w' (.opening rest')
  | opened {w : World} {s : Stream Object} : Moves w (.opening (.done s)) w (.streaming s)
  | moved {w : World} {s s' : Stream Object} {event : Stream.Event}
      (hmove : s.next? event = some s') : Moves w (.streaming s) w (.streaming s')
  | waited {w : World} {s s' : Stream Object} (hnext : s.next = (s', none)) :
      Moves w (.streaming s) w (.streaming s')

inductive Gives : Progress Object → Pull Object → Progress Object → Prop where
  | failed {report : Option Report} {e : Failure} :
      Gives (.loading (.done (report, .error e))) (.item (.failed e)) (.giving [])
  | taken {s s' : Stream Object} {a : Object} (hnext : s.next = (s', some (.ok (some a)))) :
      Gives (.streaming s) (.item (.value a)) (.streaming s')
  | drained {s s' : Stream Object} (hnext : s.next = (s', some (.ok none))) :
      Gives (.streaming s) .ended (.giving [])
  | broken {s s' : Stream Object} {e : Failure} (hnext : s.next = (s', some (.error e))) :
      Gives (.streaming s) (.item (.failed e)) (.giving [])
  | object {a : Object} {objects : List Object} :
      Gives (.giving (a :: objects)) (.item (.value a)) (.giving objects)
  | ended : Gives (.giving []) .ended (.giving [])

/-- Alone, the load gives its objects one after another up to its end or a failure, and leaves this
world. -/
inductive Comes : World → Progress Object → World → Except Failure (List Object) → Prop where
  | moved {w w' w'' : World} {p p' : Progress Object} {r : Except Failure (List Object)}
      (hmoves : Moves w p w' p') (hrest : Comes w' p' w'' r) : Comes w p w'' r
  | gave {w w' : World} {p p' : Progress Object} {a : Object} {r : Except Failure (List Object)}
      (hgives : Gives p (.item (.value a)) p') (hrest : Comes w p' w' r) :
      Comes w p w' (r.map fun objects => a :: objects)
  | ended {w : World} {p p' : Progress Object} (hgives : Gives p .ended p') : Comes w p w (.ok [])
  | failed {w : World} {p p' : Progress Object} {e : Failure}
      (hgives : Gives p (.item (.failed e)) p') : Comes w p w (.error e)

/-! ## What it comes to -/

/-- What is left of a load, as a run of its programs and a reading of its stream. -/
def Means (w : World) : Progress Object → World → Except Failure (List Object) → Prop
  | loading rest, w', r =>
    match (rest.run w).2.2 with
    | .error e => w' = (rest.run w).1 ∧ r = .error e
    | .ok (.loaded objects) => w' = (rest.run w).1 ∧ r = .ok objects
    | .ok (.lazy start) => w' = (start.run (rest.run w).1).1 ∧
        (start.run (rest.run w).1).2.Collects r
  | opening rest, w', r => w' = (rest.run w).1 ∧ (rest.run w).2.Collects r
  | streaming s, w', r => w' = w ∧ s.Collects r
  | giving objects, w', r => w' = w ∧ r = .ok objects

theorem Comes.means (h : Comes w p w' r) : p.Means w w' r := by
  induction h with
  | moved hmoves hrest ih =>
    cases hmoves with
    | called hstep =>
      have hrun := Program.run_eq_of_step hstep
      simp only [Means, hrun] at ih ⊢
      exact ih
    | opens hstep =>
      have hrun := Program.run_eq_of_step hstep
      simp only [Means, hrun] at ih ⊢
      exact ih
    | moved hmove => exact ⟨ih.1, .moved hmove ih.2⟩
    | waited hnext => exact ⟨ih.1, .waited hnext ih.2⟩
    | _ => exact ih
  | gave hgives hrest ih =>
    cases hgives with
    | taken hnext => exact ⟨ih.1, .taken hnext ih.2⟩
    | object =>
      obtain ⟨rfl, rfl⟩ := ih
      exact ⟨rfl, rfl⟩
  | ended hgives =>
    cases hgives with
    | drained hnext => exact ⟨rfl, .ended hnext⟩
    | ended => exact ⟨rfl, rfl⟩
  | failed hgives =>
    cases hgives with
    | failed => exact ⟨rfl, rfl⟩
    | broken hnext => exact ⟨rfl, .failed hnext⟩

/-- A load that is taken object by object comes to what the load can come to, and leaves the
contents that it leaves. -/
theorem Comes.yields {l : Loader Object} {schedule : Schedule} (hw : w.InMemory)
    (h : Comes w (.loading (l.loadAll schedule)) w' r) :
    l.Yields w r ∧ w'.contents = ((l.loadAll schedule).run w).1.contents := by
  have hmeans := h.means
  have hstart := (Program.disturbed_run w (l.loadAll schedule)).result
    (l.results_loadAll schedule)
  have hmem := Program.inMemory_run hw (l.loadAll schedule)
  simp only [Means] at hmeans
  cases hfull : ((l.loadAll schedule).run w).2.2 with
  | error e =>
    rw [hfull] at hmeans
    obtain ⟨rfl, rfl⟩ := hmeans
    exact ⟨.failed schedule hfull, rfl⟩
  | ok full =>
    rw [hfull] at hmeans
    cases full with
    | loaded objects =>
      obtain ⟨rfl, rfl⟩ := hmeans
      exact ⟨.loaded schedule hfull, rfl⟩
    | lazy start =>
      obtain ⟨rfl, hcollects⟩ := hmeans
      obtain rfl := hstart start hfull
      exact ⟨.streamed schedule hfull hcollects, (Loader.run_lazyRun hmem l.filter).2.1⟩

/-! ## One store -/

def Fit (key : String) (w : World) : Progress Object → Prop
  | loading rest => rest.Within key ∧ ∀ start, (rest.run w).2.2 = .ok (.lazy start) →
      start.Within key ∧ (start.run (rest.run w).1).2.Fit
  | opening rest => rest.Within key ∧ (rest.run w).2.Fit
  | streaming s => s.Fit
  | giving _ => True

theorem fit_start {l : Loader Object} (hw : w.InMemory) (schedule : Schedule) :
    (loading (l.loadAll schedule)).Fit l.binding.store w := by
  refine ⟨l.permits_within.loadAll schedule, fun start hstart => ?_⟩
  obtain rfl := (Program.disturbed_run w (l.loadAll schedule)).result
    (l.results_loadAll schedule) start hstart
  exact ⟨l.permits_within.stream, Loader.fit_lazyRun (Program.inMemory_run hw _)⟩

theorem Fit.congr (h : p.Fit key w) (hstore : w.store key = u.store key) : p.Fit key u := by
  cases p with
  | loading rest =>
    obtain ⟨hwithin, hstart⟩ := h
    obtain ⟨hresult, hleft⟩ := hwithin.run_congr hstore
    refine ⟨hwithin, fun start hlazy => ?_⟩
    rw [← hresult] at hlazy
    obtain ⟨hwithin', hfit⟩ := hstart start hlazy
    exact ⟨hwithin', (hwithin'.run_congr hleft).1 ▸ hfit⟩
  | opening rest => exact ⟨h.1, (h.1.run_congr hstore).1 ▸ h.2⟩
  | _ => exact h

theorem Moves.fit (h : Moves w p w' p') (hfit : p.Fit key w) : p'.Fit key w' := by
  cases h with
  | called hstep =>
    obtain ⟨hwithin, hstart⟩ := hfit
    refine ⟨hwithin.step hstep, ?_⟩
    rw [Program.run_eq_of_step hstep]
    exact hstart
  | loaded => trivial
  | begun => exact hfit.2 _ rfl
  | opens hstep =>
    refine ⟨hfit.1.step hstep, ?_⟩
    rw [Program.run_eq_of_step hstep]
    exact hfit.2
  | opened => exact hfit.2
  | moved hmove => exact Stream.Fit.moved hfit (Stream.move_of_next? hmove)
  | waited hnext => exact Stream.Fit.next hfit hnext

theorem Gives.fit (h : Gives p pull p') (hfit : p.Fit key w) : p'.Fit key w := by
  cases h with
  | taken hnext => exact Stream.Fit.next hfit hnext
  | _ => trivial

theorem Moves.store_eq (h : Moves w p w' p') (hfit : p.Fit key w) (hne : key' ≠ key) :
    w'.store key' = w.store key' := by
  cases h with
  | called hstep => exact hfit.1.store_step hstep hne
  | opens hstep => exact hfit.1.store_step hstep hne
  | _ => rfl

theorem Moves.inMemory (h : Moves w p w' p') (hw : w.InMemory) : w'.InMemory := by
  cases h with
  | called hstep => exact Program.inMemory_step hw hstep
  | opens hstep => exact Program.inMemory_step hw hstep
  | _ => exact hw

theorem Moves.congr (h : Moves w p w' p') (hfit : p.Fit key w)
    (hstore : w.store key = u.store key) :
    ∃ u', Moves u p u' p' ∧ w'.store key = u'.store key := by
  cases h with
  | called hstep =>
    obtain ⟨u', hstep', hleft⟩ := hfit.1.step_congr hstore hstep
    exact ⟨u', .called hstep', hleft⟩
  | loaded => exact ⟨u, .loaded, hstore⟩
  | begun => exact ⟨u, .begun, hstore⟩
  | opens hstep =>
    obtain ⟨u', hstep', hleft⟩ := hfit.1.step_congr hstore hstep
    exact ⟨u', .opens hstep', hleft⟩
  | opened => exact ⟨u, .opened, hstore⟩
  | moved hmove => exact ⟨u, .moved hmove, hstore⟩
  | waited hnext => exact ⟨u, .waited hnext, hstore⟩

/-! ## It comes to something -/

theorem exists_comes_giving (w : World) (objects : List Object) :
    Comes w (giving objects) w (.ok objects) := by
  induction objects with
  | nil => exact .ended .ended
  | cons a objects ih => exact .gave .object ih

theorem comes_of_collects (w : World) {s : Stream Object} (h : s.Collects r) :
    Comes w (streaming s) w r := by
  induction h with
  | ended hnext => exact .ended (.drained hnext)
  | failed hnext => exact .failed (.broken hnext)
  | taken hnext hrest ih => exact .gave (.taken hnext) ih
  | waited hnext hrest ih => exact .moved (.waited hnext) ih
  | moved hmove hrest ih => exact .moved (.moved hmove) ih

theorem comes_of_opening {rest : Program (Stream Object)} (h : (rest.run w).2.Collects r) :
    Comes w (opening rest) (rest.run w).1 r := by
  induction rest generalizing w with
  | done s => exact .moved .opened (comes_of_collects w h)
  | call store c next ih => exact .moved (.opens rfl) (ih _ h)

theorem exists_comes_opening {rest : Program (Stream Object)} (h : (rest.run w).2.Fit) :
    ∃ w' r, Comes w (opening rest) w' r := by
  obtain ⟨r, hr⟩ := h.exists_collects
  exact ⟨_, r, comes_of_opening hr⟩

/-- Whoever goes on asking is answered to the end. -/
theorem Fit.exists_comes (h : p.Fit key w) : ∃ w' r, Comes w p w' r := by
  cases p with
  | loading rest =>
    induction rest generalizing w with
    | done result =>
      obtain ⟨report, full⟩ := result
      cases full with
      | error e => exact ⟨w, _, .failed .failed⟩
      | ok full =>
        cases full with
        | loaded objects => exact ⟨w, _, .moved .loaded (exists_comes_giving w objects)⟩
        | lazy start =>
          obtain ⟨w', r, hcomes⟩ := exists_comes_opening (h.2 start rfl).2
          exact ⟨w', r, .moved .begun hcomes⟩
    | call store c next ih =>
      obtain ⟨w', r, hcomes⟩ := ih _ ((Moves.called rfl).fit h)
      exact ⟨w', r, .moved (.called rfl) hcomes⟩
  | opening rest => exact exists_comes_opening h.2
  | streaming s =>
    obtain ⟨r, hr⟩ := Stream.Fit.exists_collects h
    exact ⟨w, r, comes_of_collects w hr⟩
  | giving objects => exact ⟨w, _, exists_comes_giving w objects⟩

/-! ## Halfway -/

/-- The load has given `told` since it was at `p₀`: with what it comes to from here, it comes to
both from there. -/
def Continues (w₀ : World) (p₀ : Progress Object) (told : List Object) (w : World)
    (p : Progress Object) : Prop :=
  ∀ w' r, Comes w p w' r → Comes w₀ p₀ w' (r.map fun objects => told ++ objects)

theorem continues_start (w : World) (p : Progress Object) : Continues w p [] w p := by
  intro w' r h
  cases r <;> exact h

theorem Continues.moved (h : Continues w₀ p₀ told w p) (hmoves : Moves w p w' p') :
    Continues w₀ p₀ told w' p' := fun w'' r hcomes => h w'' r (.moved hmoves hcomes)

theorem Continues.gave (h : Continues w₀ p₀ told w p) (hgives : Gives p (.item (.value a)) p') :
    Continues w₀ p₀ (told ++ [a]) w p' := by
  intro w' r hcomes
  have hmore := h w' _ (.gave hgives hcomes)
  cases r with
  | ok objects => simpa [Except.map] using hmore
  | error e => exact hmore

theorem Continues.ended (h : Continues w₀ p₀ told w p) (hgives : Gives p .ended p') :
    Comes w₀ p₀ w (.ok told) := by
  have hall := h w _ (.ended hgives)
  simpa [Except.map] using hall

theorem Continues.failed (h : Continues w₀ p₀ told w p) (hgives : Gives p (.item (.failed e)) p') :
    Comes w₀ p₀ w (.error e) := h w _ (.failed hgives)

end Progress

end Load

end StoredObjects
