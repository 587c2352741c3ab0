import StoredObjects.Proofs.Load.Calls
import StoredObjects.Proofs.Replica.Wiring
import StoredObjects.Proofs.Store.Faults

/-! # Sessions

A session applies batches and loads, one after another, while any call may fail. What the calls of
batches and of loaders keep, a session keeps.
-/

namespace StoredObjects

inductive Operation (Object : Type) where
  | synchronize (batch : List (Sync.Intent Object))
  /-- A full load; what it gives the means to read is read. -/
  | loadAll (schedule : Load.Schedule) (name : String)
  | loadById (name : String) (identity : Value)
  | loadLike (schedule : Load.Schedule) (name : String) (template : Object)
  | loadMatching (schedule : Load.Schedule) (name : String) (q : Query)
      (filter : Option (Routing.Filter Object))
  | initialLoad (schedule : Load.Schedule)

namespace Operation

variable {Object : Type}

def program (r : Replica Object) : Operation Object → Program (Replica Object)
  | synchronize batch => do
    let _ ← r.synchronize batch
    return r
  | loadAll schedule name => do
    match ← r.loadAll schedule name with
    | (r, .ok (.lazy start)) =>
      let _ ← start
      return r
    | (r, _) => return r
  | loadById name identity => do
    let _ ← r.loadById name identity
    return r
  | loadLike schedule name template => do
    let (r, _) ← r.loadLike schedule name template
    return r
  | loadMatching schedule name q filter => do
    let (r, _) ← r.loadMatching schedule name q filter
    return r
  | initialLoad schedule => do
    let (r, _) ← r.initialLoad schedule
    return r

end Operation

inductive Session {Object : Type} :
    Replica Object → World → List (Operation Object) → Replica Object → World → Prop where
  | nil (r : Replica Object) (w : World) : Session r w [] r w
  | cons {r r' r'' : Replica Object} {w w' w'' : World} {operation : Operation Object}
      {later : List (Operation Object)}
      (hfirst : Program.Disturbed w (operation.program r) w' r')
      (hrest : Session r' w' later r'' w'') : Session r w (operation :: later) r'' w''

namespace Replica

variable {Object : Type} {r : Replica Object} {P : String → Call → Prop}

theorem binding_of_loader {name : String} {l : Load.Loader Object} (h : r.loader name = .ok l) :
    l.binding ∈ r.bindings := by
  unfold loader at h
  split at h
  · rename_i b hb
    obtain rfl := Except.ok.inj h
    exact Binding.mem_of_find? hb
  · cases h

theorem binding_of_mem_initialLoaders {l : Load.Loader Object} (h : l ∈ r.initialLoaders) :
    l.binding ∈ r.bindings := by
  obtain ⟨t, -, ht⟩ := List.mem_filterMap.mp h
  cases hl : r.loader t.name with
  | error e => simp [hl, Except.toOption] at ht
  | ok l' =>
    obtain rfl : l' = l := by simpa [hl, Except.toOption] using ht
    exact binding_of_loader hl

@[simp] theorem bindings_note (r : Replica Object) (report : Option Load.Report) :
    (r.note report).bindings = r.bindings := by
  cases report <;> rfl

theorem bindings_keep (r : Replica Object) (result : Except Failure (Load.Result Object)) :
    (r.keep result).1.bindings = r.bindings := by
  cases result <;> rfl

section Loads

variable (hload : ∀ l : Load.Loader Object, l.binding ∈ r.bindings → l.Permits P)
  (schedule : Load.Schedule) (name : String)

include hload in
theorem calls_loadAll : (r.loadAll schedule name).Calls P := by
  unfold loadAll
  split
  · trivial
  · rename_i l hl
    exact ((hload l (binding_of_loader hl)).loadAll schedule).bind fun _ => trivial

theorem results_loadAll (r : Replica Object) :
    (r.loadAll schedule name).Results fun x => x.1.bindings = r.bindings ∧
      ∀ start, x.2 = .ok (.lazy start) → ∃ l : Load.Loader Object,
        l.binding ∈ r.bindings ∧ start = l.stream := by
  unfold loadAll
  split
  · exact ⟨rfl, nofun⟩
  · rename_i l hl
    refine (l.results_loadAll schedule).bind fun x hx => ⟨bindings_note r x.1, fun start h => ?_⟩
    exact ⟨l, binding_of_loader hl, hx start h⟩

include hload in
theorem calls_loadById (identity : Value) : (r.loadById name identity).Calls P := by
  unfold loadById
  split
  · trivial
  · rename_i l hl
    exact (hload l (binding_of_loader hl)).loadById identity

include hload in
theorem calls_loadLike (template : Object) : (r.loadLike schedule name template).Calls P := by
  unfold loadLike
  split
  · trivial
  · rename_i l hl
    exact ((hload l (binding_of_loader hl)).loadLike schedule template).bind fun _ => trivial

theorem results_loadLike (r : Replica Object) (template : Object) :
    (r.loadLike schedule name template).Results fun x => x.1.bindings = r.bindings := by
  unfold loadLike
  split
  · rfl
  · exact (Program.results_true _).bind fun x _ => bindings_keep r x

include hload in
theorem calls_loadMatching (q : Query) (filter : Option (Routing.Filter Object)) :
    (r.loadMatching schedule name q filter).Calls P := by
  unfold loadMatching
  split
  · trivial
  · rename_i l hl
    exact ((hload l (binding_of_loader hl)).loadMatching schedule q _).bind fun _ => trivial

theorem results_loadMatching (r : Replica Object) (q : Query)
    (filter : Option (Routing.Filter Object)) :
    (r.loadMatching schedule name q filter).Results fun x => x.1.bindings = r.bindings := by
  unfold loadMatching
  split
  · rfl
  · exact (Program.results_true _).bind fun x _ => bindings_keep r x

end Loads

theorem calls_loadSources (schedule : Load.Schedule) {loaders : List (Load.Loader Object)}
    (h : ∀ l ∈ loaders, l.Permits P) (r : Replica Object) :
    (loadSources schedule r loaders).Calls P := by
  induction loaders generalizing r with
  | nil => trivial
  | cons l loaders ih =>
    refine ((h l List.mem_cons_self).loadItems schedule _).bind fun x => ?_
    exact (ih (fun l' hl' => h l' (List.mem_cons_of_mem _ hl')) _).bind fun _ => trivial

theorem results_loadSources (schedule : Load.Schedule) (loaders : List (Load.Loader Object))
    (r : Replica Object) :
    (loadSources schedule r loaders).Results fun x => x.1.bindings = r.bindings := by
  induction loaders generalizing r with
  | nil => rfl
  | cons l loaders ih =>
    refine (Program.results_true _).bind fun x _ => (ih (r.note x.1)).bind fun y hy => ?_
    exact hy.trans (bindings_note r x.1)

theorem calls_initialLoad (hload : ∀ l : Load.Loader Object, l.binding ∈ r.bindings → l.Permits P)
    (schedule : Load.Schedule) : (r.initialLoad schedule).Calls P := by
  have hloaders : ∀ l ∈ r.initialLoaders, l.Permits P :=
    fun l hl => hload l (binding_of_mem_initialLoaders hl)
  exact (calls_loadSources schedule hloaders r).bind fun _ => trivial

theorem results_initialLoad (schedule : Load.Schedule) (r : Replica Object) :
    (r.initialLoad schedule).Results fun x => x.1.bindings = r.bindings :=
  (results_loadSources schedule r.initialLoaders r).bind fun _ h => h

end Replica

namespace Operation

variable {Object : Type} {r : Replica Object} {P : String → Call → Prop}

theorem calls_program (hsync : ∀ batch, (r.synchronize batch).Calls P)
    (hload : ∀ l : Load.Loader Object, l.binding ∈ r.bindings → l.Permits P)
    (operation : Operation Object) : (operation.program r).Calls P := by
  cases operation with
  | synchronize batch => exact (hsync batch).bind fun _ => trivial
  | loadAll schedule name =>
    refine (Replica.calls_loadAll hload schedule name).bind_of_results
      (Replica.results_loadAll schedule name r) fun x hx => ?_
    obtain ⟨r', full⟩ := x
    cases full with
    | error e => trivial
    | ok full =>
      cases full with
      | loaded objects => trivial
      | lazy start =>
        obtain ⟨l, hl, rfl⟩ := hx.2 start rfl
        exact (hload l hl).stream.bind fun _ => trivial
  | loadById name identity =>
    exact (Replica.calls_loadById hload name identity).bind fun _ => trivial
  | loadLike schedule name template =>
    exact (Replica.calls_loadLike hload schedule name template).bind fun _ => trivial
  | loadMatching schedule name q filter =>
    exact (Replica.calls_loadMatching hload schedule name q filter).bind fun _ => trivial
  | initialLoad schedule =>
    exact (Replica.calls_initialLoad hload schedule).bind fun _ => trivial

theorem bindings_of_program (r : Replica Object) (operation : Operation Object) :
    (operation.program r).Results fun r' => r'.bindings = r.bindings := by
  cases operation with
  | synchronize batch => exact (Program.results_true _).bind fun _ _ => rfl
  | loadAll schedule name =>
    refine (Replica.results_loadAll schedule name r).bind fun x hx => ?_
    obtain ⟨r', full⟩ := x
    cases full with
    | error e => exact hx.1
    | ok full =>
      cases full with
      | loaded objects => exact hx.1
      | lazy start => exact (Program.results_true _).bind fun _ _ => hx.1
  | loadById name identity => exact (Program.results_true _).bind fun _ _ => rfl
  | loadLike schedule name template =>
    exact (Replica.results_loadLike schedule name r template).bind fun _ h => h
  | loadMatching schedule name q filter =>
    exact (Replica.results_loadMatching schedule name r q filter).bind fun _ h => h
  | initialLoad schedule =>
    exact (Replica.results_initialLoad schedule r).bind fun _ h => h

end Operation

theorem Session.invariant {Object : Type} {P : String → Call → Prop} {I : World → Prop}
    {bindings : List (Binding Object)} {r r' : Replica Object} {w w' : World}
    {operations : List (Operation Object)} (h : Session r w operations r' w')
    (hr : r.bindings = bindings)
    (hsync : ∀ t batch, (Sync.synchronize bindings t batch).Calls P)
    (hload : ∀ l : Load.Loader Object, l.binding ∈ bindings → l.Permits P)
    (hanswer : ∀ w store c, P store c → I w → I (w.answer store c).1)
    (hfail : ∀ w store c, P store c → I w → I (w.noteFailed store c)) (hw : I w) : I w' := by
  induction h with
  | nil => exact hw
  | @cons r r' r'' w w' w'' operation later hfirst hrest ih =>
    subst hr
    refine ih (hfirst.result (operation.bindings_of_program r)) ?_
    exact hfirst.invariant (operation.calls_program (hsync r.triage) hload) hanswer hfail hw

end StoredObjects
