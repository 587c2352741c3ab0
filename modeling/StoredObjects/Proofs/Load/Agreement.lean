import StoredObjects.Proofs.Load.PushDown

/-! # Lazy loads and loads at once

A lazy load converts the documents that a load at once would convert. Unless a document dies in
work, its reader comes to the objects of all of them, each once, exactly when the conversion at once
would succeed, and otherwise to a failure of the selection or of a document. No run goes on for
ever, and each can be brought to its end. Nothing is written, so that a second load comes to the
same.
-/

namespace StoredObjects

namespace Load

variable {Object : Type}

/-- Both came to the same objects, in some order, or both failed. -/
def Alike {ε ε' : Type} : Except ε (List Object) → Except ε' (List Object) → Prop
  | .ok objects, .ok objects' => objects.Perm objects'
  | .error _, .error _ => True
  | _, _ => False

namespace Stream

variable {s s' s₁ s₂ : Stream Object} {n : Nat} {taken : List Object}
  {r : Except Failure (List Object)}

/-! ## Runs -/

inductive Runs (s : Stream Object) : Nat → List Object → Stream Object → Prop where
  | start : Runs s 0 [] s
  | moved {n : Nat} {taken : List Object} {s₁ s₂ : Stream Object} {e : Event}
      (hrun : Runs s n taken s₁) (he : e ≠ .wake) (hmove : s₁.next? e = some s₂) :
      Runs s (n + 1) taken s₂
  | took {n : Nat} {taken : List Object} {s₁ s₂ : Stream Object} {object : Object}
      (hrun : Runs s n taken s₁) (hnext : s₁.next = (s₂, some (.ok (some object)))) :
      Runs s n (taken ++ [object]) s₂
  | waited {n : Nat} {taken : List Object} {s₁ s₂ : Stream Object} (hrun : Runs s n taken s₁)
      (hnext : s₁.next = (s₂, none)) : Runs s n taken s₂
  | woke {n : Nat} {taken : List Object} {s₁ s₂ : Stream Object} (hrun : Runs s n taken s₁)
      (hmove : s₁.next? .wake = some s₂) : Runs s n taken s₂

theorem weight_lt_of_took {object : Object} (hnext : s.next = (s', some (.ok (some object)))) :
    s'.weight < s.weight := by
  cases reads_of_next hnext with
  | seen hpeeked => simp [weight, hpeeked]
  | queued hpeeked hqueue => simp [weight, hpeeked, hqueue]

theorem weight_of_waited (hnext : s.next = (s', none)) : s'.weight = s.weight := by
  cases reads_of_next hnext with
  | waits => rfl

theorem weight_of_woke (hmove : s.next? .wake = some s') : s'.weight = s.weight := by
  simp only [next?] at hmove
  split at hmove
  · cases hmove
    rfl
  · cases hmove

/-- Every move and every object that is taken is paid for by the weight at the start. -/
theorem Runs.weight_le (h : Runs s n taken s') : n + taken.length + s'.weight ≤ s.weight := by
  induction h with
  | start => simp
  | moved hrun he hmove ih =>
    have hlt := weight_lt_of_next? hmove he
    omega
  | took hrun hnext ih =>
    have hlt := weight_lt_of_took hnext
    rw [List.length_append, List.length_singleton]
    omega
  | waited hrun hnext ih => rw [weight_of_waited hnext]; exact ih
  | woke hrun hmove ih => rw [weight_of_woke hmove]; exact ih

theorem Fit.next (h : Fit s) {answer : Option (Except Failure (Option Object))}
    (hnext : s.next = (s', answer)) : Fit s' := by
  cases reads_of_next hnext <;> exact ⟨h.capacity, h.readable, h.own, h.idle⟩

theorem Runs.fit (h : Runs s n taken s') (hfit : Fit s) : Fit s' := by
  induction h with
  | start => exact hfit
  | moved hrun he hmove ih => exact ih.moved (move_of_next? hmove)
  | took hrun hnext ih => exact ih.next hnext
  | waited hrun hnext ih => exact ih.next hnext
  | woke hrun hmove ih => exact ih.moved (move_of_next? hmove)

/-- A run can be brought to an end within the weight at its start. -/
theorem Runs.ends (h : Runs s n taken s') (hfit : Fit s) :
    n + taken.length ≤ s.weight ∧ ∃ r, s'.Collects r :=
  ⟨by have hle := h.weight_le; omega, (h.fit hfit).exists_collects⟩

theorem Runs.collects (h : Runs s n taken s') (hr : s'.Collects r) :
    s.Collects (r.map fun objects => taken ++ objects) := by
  induction h generalizing r with
  | start => cases r <;> exact hr
  | moved hrun he hmove ih => exact ih (.moved hmove hr)
  | took hrun hnext ih =>
    have hmore := ih (.taken hnext hr)
    cases r with
    | ok objects => simpa [Except.map] using hmore
    | error e => exact hmore
  | waited hrun hnext ih => exact ih (.waited hnext hr)
  | woke hrun hmove ih => exact ih (.moved hmove hr)

/-! ## Loads that could not be opened -/

variable {step : Step Object} {workers capacity : Nat} {e : Failure}

theorem fit_unopened (hcapacity : 0 < capacity) : Fit (unopened step workers capacity e) :=
  ⟨hcapacity, by simp [unopened], by simp [unopened], by simp [unopened]⟩

theorem next_unopened : (unopened step workers capacity e).next =
    (unopened step workers capacity e, some (.error e)) := next_of_failure rfl rfl rfl

theorem next?_unopened (event : Event) : (unopened step workers capacity e).next? event = none := by
  cases event <;> simp [next?, unopened]

theorem eq_error_of_collects_unopened (h : (unopened step workers capacity e).Collects r) :
    r = .error e := by
  generalize hs : unopened step workers capacity e = s at h
  cases h with
  | failed hnext =>
    rw [← hs, next_unopened] at hnext
    cases hnext
    rfl
  | moved hmove =>
    rw [← hs, next?_unopened] at hmove
    cases hmove
  | ended hnext =>
    rw [← hs, next_unopened] at hnext
    cases hnext
  | taken hnext =>
    rw [← hs, next_unopened] at hnext
    cases hnext
  | waited hnext =>
    rw [← hs, next_unopened] at hnext
    cases hnext

end Stream

namespace Loader

variable {l : Loader Object} {filter : Routing.Filter Object} {w w' : World} {c : Collection}
  {raws : List Document} {objects : List Object}

/-! ## What a load gives -/

/-- The selection and the work on every selected document succeed, and `objects` are what they give.
-/
def Gives (l : Loader Object) (filter : Routing.Filter Object) (c : Collection)
    (objects : List Object) : Prop :=
  ∃ raws, l.selects filter c = .ok raws ∧
    (∀ raw ∈ raws, ∃ x, (l.step filter).process raw = .ok x) ∧
    objects.Perm (raws.filterMap (l.step filter).object?)

def Raises (l : Loader Object) (filter : Routing.Filter Object) (c : Collection) (e : Failure) :
    Prop :=
  l.selects filter c = .error e ∨ ∃ raws, l.selects filter c = .ok raws ∧
    ∃ raw ∈ raws, (l.step filter).process raw = .error (.failed e)

/-- The result is what the load gives; a failure if it gives nothing. -/
def Tells {ε : Type} (l : Loader Object) (filter : Routing.Filter Object) (c : Collection) :
    Except ε (List Object) → Prop
  | .ok objects => l.Gives filter c objects
  | .error _ => ∀ objects, ¬ l.Gives filter c objects

theorem Raises.not_gives {e : Failure} (h : l.Raises filter c e) : ¬ l.Gives filter c objects := by
  rintro ⟨raws, hraws, hok, -⟩
  rcases h with herror | ⟨raws', hraws', raw, hraw, hfailed⟩
  · rw [hraws] at herror
    cases herror
  · obtain rfl : raws = raws' := Except.ok.inj (hraws.symm.trans hraws')
    obtain ⟨x, hx⟩ := hok raw hraw
    rw [hx] at hfailed
    cases hfailed

theorem Tells.alike {ε ε' : Type} {r : Except ε (List Object)} {r' : Except ε' (List Object)}
    (h : l.Tells filter c r) (h' : l.Tells filter c r') : Alike r r' := by
  cases r with
  | error e =>
    cases r' with
    | error e' => trivial
    | ok objects' => exact h objects' h'
  | ok objects =>
    cases r' with
    | error e' => exact h' objects h
    | ok objects' =>
      obtain ⟨raws, hraws, -, hperm⟩ := h
      obtain ⟨raws', hraws', -, hperm'⟩ := h'
      obtain rfl : raws = raws' := Except.ok.inj (hraws.symm.trans hraws')
      exact hperm.trans hperm'.symm

/-! ## Conversion at once -/

def convertAll (l : Loader Object) (filter : Routing.Filter Object) (pick : Nat → Nat) :
    Program (Except Interruption (Outcome Object)) := do
  match ← l.openSource filter with
  | .ok reading => return convert (l.step filter) l.settings.workers pick reading
  | .error e => return .error (.failed e)

theorem loadEagerly_eq_bind (schedule : Schedule) :
    l.loadEagerly schedule = (l.convertAll l.filter schedule.converted).bind fun
      | .error i => .done (.error i)
      | .ok o => (writeBack l.binding.store
          (arrange schedule.written l.settings.workers 0 o.upgrades)).bind fun
        | .ok () => .done (.ok ⟨o.objects, l.reportOf o⟩)
        | .error e => .done (.error (.failed e)) := by
  have hthen : ∀ reading, l.loadReading schedule l.filter reading =
      match convert (l.step l.filter) l.settings.workers schedule.converted reading with
      | .error i => .done (.error i)
      | .ok o => (writeBack l.binding.store
          (arrange schedule.written l.settings.workers 0 o.upgrades)).bind fun
        | .ok () => .done (.ok ⟨o.objects, l.reportOf o⟩)
        | .error e => .done (.error (.failed e)) := fun _ => rfl
  unfold loadEagerly convertAll openReading openSource
  split <;>
  · refine congrArg (Program.call _ _) (funext fun r => ?_)
    cases r with
    | error e => rfl
    | ok reading => exact hthen reading

theorem result_convertAll (pick : Nat → Nat) (w : World) :
    ((l.convertAll filter pick).run w).2 = match ((l.openSource filter).run w).2 with
      | .ok reading => convert (l.step filter) l.settings.workers pick reading
      | .error e => .error (.failed e) := by
  unfold convertAll
  rw [Program.bind_eq, Program.run_bind]
  cases ((l.openSource filter).run w).2 <;> rfl

theorem tells_convertAll (hw : w.InMemory) (pick : Nat → Nat) :
    l.Tells filter (w.contents l.binding.store)
      (((l.convertAll filter pick).run w).2.map Outcome.objects) := by
  rw [result_convertAll, (run_openSource hw filter).2.2]
  cases hselects : l.selects filter (w.contents l.binding.store) with
  | error e =>
    rintro objects ⟨raws, hraws, -⟩
    rw [hselects] at hraws
    cases hraws
  | ok raws =>
    -- the conversion keeps all that it is given or fails, so its success is that of every document
    simp only [Except.map]
    cases hconvert : convert (l.step filter) l.settings.workers pick (raws.map .value) with
    | ok o =>
      obtain ⟨raws', hread, hok, rfl⟩ := of_convert_eq_ok hconvert
      rw [Item.readAll_map_value] at hread
      obtain rfl := (Prod.mk.inj hread).1
      refine ⟨raws, hselects, hok, ?_⟩
      rw [objects_map_outcome]
      exact (arrange_perm _ _ _ _).filterMap _
    | error i =>
      rintro objects ⟨raws', hraws', hok, -⟩
      obtain rfl : raws = raws' := Except.ok.inj (hselects.symm.trans hraws')
      rw [convert_eq_ok hok] at hconvert
      cases hconvert

/-! ## Lazy loads -/

theorem fit_lazyRun (hw : w.InMemory) : ((l.lazyRun filter).run w).2.Fit := by
  have hcapacity : 0 < max l.settings.outputCapacity 1 := by omega
  rw [(run_lazyRun hw filter).2.2]
  cases l.selects filter (w.contents l.binding.store) with
  | ok raws => exact Stream.fit_opened hcapacity (by simp)
  | error e => exact Stream.fit_unopened hcapacity

theorem collectsSound_lazyRun (hw : w.InMemory)
    (hlive : ∀ raws, l.selects filter (w.contents l.binding.store) = .ok raws →
      ∀ raw ∈ raws, (l.step filter).process raw ≠ .error .died)
    {r : Except Failure (List Object)} (hr : ((l.lazyRun filter).run w).2.Collects r) :
    ((l.lazyRun filter).run w).2.CollectsSound r := by
  have hcapacity : 0 < max l.settings.outputCapacity 1 := by omega
  rw [(run_lazyRun hw filter).2.2] at hr ⊢
  cases hselects : l.selects filter (w.contents l.binding.store) with
  | ok raws =>
    rw [hselects] at hr
    exact (Stream.serves_start hcapacity).collectsSound (hlive raws hselects) hr
  | error e =>
    rw [hselects] at hr
    obtain rfl := Stream.eq_error_of_collects_unopened hr
    exact .failed Stream.next_unopened

/-- Unless a document dies, a reader comes to what the load gives, or to a failure of it. -/
theorem of_collectsSound_lazyRun (hw : w.InMemory) {r : Except Failure (List Object)}
    (hr : ((l.lazyRun filter).run w).2.CollectsSound r) :
    l.Tells filter (w.contents l.binding.store) r ∧
      ∀ e, r = .error e → l.Raises filter (w.contents l.binding.store) e := by
  have hcapacity : 0 < max l.settings.outputCapacity 1 := by omega
  have hresult :
      (∃ objects, r = .ok objects ∧ l.Gives filter (w.contents l.binding.store) objects) ∨
      ∃ e, r = .error e ∧ l.Raises filter (w.contents l.binding.store) e := by
    rw [(run_lazyRun hw filter).2.2] at hr
    cases hselects : l.selects filter (w.contents l.binding.store) with
    | ok raws =>
      rw [hselects] at hr
      have hend := (Stream.serves_start hcapacity).fulfils_of_sound hr
      cases r with
      | ok objects =>
        refine Or.inl ⟨objects, rfl, raws, hselects, hend.1, ?_⟩
        have hsum := hend.2
        rw [zero_add, Step.sum_promise] at hsum
        exact Multiset.coe_eq_coe.mp hsum
      | error e => exact Or.inr ⟨e, rfl, Or.inr ⟨raws, hselects, hend⟩⟩
    | error e =>
      rw [hselects] at hr
      exact Or.inr ⟨e, Stream.eq_error_of_collects_unopened hr.collects, Or.inl hselects⟩
  rcases hresult with ⟨objects, rfl, hgives⟩ | ⟨e, rfl, hraises⟩
  · exact ⟨hgives, by simp⟩
  · refine ⟨fun objects => hraises.not_gives, fun e' he' => ?_⟩
    obtain rfl := Except.error.inj he'
    exact hraises

end Loader

/-- In every run in which no document dies, a reader comes to the objects of all selected documents
exactly when each of them can be converted, which is when the conversion at once succeeds, and to
the same objects; otherwise to a failure of the selection or of a document. Every run can be brought
to its end, nothing is written, and a further run over the same contents comes to the same. -/
theorem lazyRun_agrees_with_conversion (l : Loader Object) (filter : Routing.Filter Object)
    {w : World} (hw : w.InMemory) :
    (((l.lazyRun filter).run w).1.InMemory ∧
      ((l.lazyRun filter).run w).1.contents = w.contents) ∧
    (∀ n taken s, ((l.lazyRun filter).run w).2.Runs n taken s →
      n + taken.length ≤ ((l.lazyRun filter).run w).2.weight ∧ ∃ r, s.Collects r) ∧
    ((∀ raws, l.selects filter (w.contents l.binding.store) = .ok raws →
        ∀ raw ∈ raws, (l.step filter).process raw ≠ .error .died) →
      ∀ r, ((l.lazyRun filter).run w).2.Collects r →
        ((l.lazyRun filter).run w).2.CollectsSound r) ∧
    ∀ r, ((l.lazyRun filter).run w).2.CollectsSound r →
      ((∃ objects, r = .ok objects) ↔
        ∃ raws, l.selects filter (w.contents l.binding.store) = .ok raws ∧
          ∀ raw ∈ raws, ∃ x, (l.step filter).process raw = .ok x) ∧
      (∀ objects, r = .ok objects → l.Gives filter (w.contents l.binding.store) objects) ∧
      (∀ e, r = .error e → l.Raises filter (w.contents l.binding.store) e) ∧
      (∀ pick, Alike r (((l.convertAll filter pick).run w).2.map Outcome.objects)) ∧
      ∀ w' : World, w'.InMemory → w'.contents l.binding.store = w.contents l.binding.store →
        ∀ r', ((l.lazyRun filter).run w').2.CollectsSound r' → Alike r r' := by
  obtain ⟨hmem, hcontents, -⟩ := Loader.run_lazyRun (l := l) hw filter
  refine ⟨⟨hmem, hcontents⟩, fun n taken s hrun => hrun.ends (Loader.fit_lazyRun hw),
    fun hlive r hr => Loader.collectsSound_lazyRun hw hlive hr, fun r hr => ?_⟩
  obtain ⟨htells, hraises⟩ := Loader.of_collectsSound_lazyRun hw hr
  have hgives : ∀ objects, r = .ok objects →
      l.Gives filter (w.contents l.binding.store) objects := by
    rintro objects rfl
    exact htells
  refine ⟨⟨?_, ?_⟩, hgives, hraises, fun pick => ?_, fun w' hw' hsame r' hr' => ?_⟩
  · rintro ⟨objects, hr⟩
    obtain ⟨raws, hraws, hok, -⟩ := hgives objects hr
    exact ⟨raws, hraws, hok⟩
  · rintro ⟨raws, hraws, hok⟩
    cases r with
    | ok objects => exact ⟨objects, rfl⟩
    | error e => exact absurd ⟨raws, hraws, hok, .refl _⟩ (htells _)
  · exact htells.alike (Loader.tells_convertAll hw pick)
  · have htells' := (Loader.of_collectsSound_lazyRun hw' hr').1
    rw [hsame] at htells'
    exact htells.alike htells'

/-- Whatever the parts do, a reader of the market comes to both fruits. -/
theorem market_read_in_full :
    market.InMemory ∧ (∃ r, ((sourced.lazyRun .acceptAll).run market).2.Collects r) ∧
      ∀ r, ((sourced.lazyRun .acceptAll).run market).2.Collects r →
        ∃ objects, r = .ok objects ∧ objects.Perm [spanish "apple", spanish "pear"] := by
  obtain ⟨-, hends, hsound, hagrees⟩ :=
    lazyRun_agrees_with_conversion sourced .acceptAll inMemory_market
  have hraws : sourced.selects .acceptAll (market.contents sourced.binding.store) =
      .ok [grownIn "Peru" "apple", grownIn "Chile" "pear"] := rfl
  have hok : ∀ raw ∈ [grownIn "Peru" "apple", grownIn "Chile" "pear"],
      ∃ x, (sourced.step .acceptAll).process raw = .ok x := by
    intro raw hraw
    rcases List.mem_pair.mp hraw with rfl | rfl <;> exact ⟨_, rfl⟩
  refine ⟨inMemory_market, (hends 0 [] _ .start).2, fun r hr => ?_⟩
  obtain ⟨hiff, hgives, -⟩ := hagrees r <| hsound (fun raws hsel raw hraw hdied => by
    obtain rfl := Except.ok.inj (hsel.symm.trans hraws)
    obtain ⟨x, hx⟩ := hok raw hraw
    rw [hx] at hdied
    cases hdied) r hr
  obtain ⟨objects, rfl⟩ := hiff.mpr ⟨_, hraws, hok⟩
  obtain ⟨raws, hsel, -, hperm⟩ := hgives objects rfl
  obtain rfl := Except.ok.inj (hsel.symm.trans hraws)
  exact ⟨objects, rfl, hperm⟩

end Load

end StoredObjects
