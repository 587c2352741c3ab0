import StoredObjects.Proofs.Sync.Plan

/-! # Trying a batch again

A failing call stops a batch half-way, and the whole batch is then applied again. Updates and
removals can be repeated at will. A strict insert of several documents cannot: it stops at the first
identity that is taken. The documents behind that one are usually stored as well, from the first
attempt, but not those that a repeated removal took away again. Such a document is lost, and nothing
else is.
-/

namespace StoredObjects

namespace Sync

variable {Object : Type}

/-- One of the strict inserts holds two documents. The front one is stored in `σ`, and no action
before the insert names it; the other one is named before the insert, and not after it. -/
def Strands (as : List Action) (σ : Contents) : Prop :=
  ∃ before g after, as = before ++ .insertAll g :: after ∧
    ∃ d e k j, [d, e].Sublist g.documents ∧ d.key? = some k ∧ e.key? = some j ∧
      (∀ a ∈ before, ¬ a.Names (g.store, k)) ∧ σ.at? (g.store, k) ≠ none ∧
      (∃ a ∈ before, a.Names (g.store, j)) ∧ ∀ a ∈ after, ¬ a.Names (g.store, j)

/-! ## The second attempt -/

section Retry

variable {σ τ : Contents} {as before after : List Action} {g : Group} {place : Place}

theorem Action.overwrites_of_leaves {a : Action} (hn : a.Names place)
    (hl : a.leaves place = none) : a.Overwrites := by
  cases a with
  | insertAll g =>
    obtain ⟨-, d, hd, hk⟩ := hn
    exact absurd (List.find?_eq_none.mp hl d hd) (by simpa using hk)
  | update => trivial
  | remove => trivial
  | _ => exact hn.elim

/-- What a strict insert adds and something before it names, was removed before it. Removals can be
repeated, so the place is free whatever the contents were at first. -/
theorem at?_eq_none_of_named_before (has : ∀ a ∈ as, a.Identified) (hok : failures σ as = 0)
    (hsplit : as = before ++ .insertAll g :: after) (hg : (Action.insertAll g).Names place)
    (hbefore : ∃ a ∈ before, a.Names place) : (effects τ before).at? place = none := by
  subst hsplit
  have hokBefore : failures σ before = 0 := by
    rw [failures_append] at hok
    omega
  have hfree : (effects σ before).at? place = none :=
    Action.at?_eq_none_of_verdict (has _ (by simp)) (verdict_of_split hok) hg
  rcases last_naming before place with hnone | ⟨front, a, back, rfl, ha, hback⟩
  · obtain ⟨a, hmem, ha⟩ := hbefore
    exact absurd ha (hnone a hmem)
  · have hids : ∀ b ∈ front ++ a :: back, b.Identified :=
      fun b hb => has b (List.mem_append_left _ hb)
    have hleaves : a.leaves place = none := by
      rw [← at?_effects_of_last hids hokBefore ha hback]
      exact hfree
    rw [at?_effects_of_last_overwrites hids (Action.overwrites_of_leaves ha hleaves) ha hback]
    exact hleaves

theorem exists_front {g : Group} {e : Document} (he : e ∈ g.documents) :
    ∃ front back, g.documents = front ++ e :: back ∧ ∀ d ∈ front, [d, e].Sublist g.documents := by
  obtain ⟨front, back, hds⟩ := List.append_of_mem he
  refine ⟨front, back, hds, fun d hd => ?_⟩
  rw [hds]
  exact List.cons_sublist_iff.mpr ⟨front, e :: back, rfl, hd, by simp⟩

/-- The strict insert adds a document again when it finds the places of all documents in front of it
free, and its own. -/
theorem at?_effects_of_front_free (has : ∀ a ∈ as, a.Identified) (hok : failures σ as = 0)
    (hsplit : as = before ++ .insertAll g :: after) {e : Document} {j : String}
    (he : e ∈ g.documents) (hj : e.key? = some j)
    (hafter : ∀ a ∈ after, ¬ a.Names (g.store, j))
    (hfront : ∀ d, [d, e].Sublist g.documents → ∀ k, d.key? = some k →
      (effects τ before).at? (g.store, k) = none)
    (hfree : (effects τ before).at? (g.store, j) = none) :
    (effects τ as).at? (g.store, j) = (effects σ as).at? (g.store, j) := by
  subst hsplit
  have hg := has (.insertAll g) (by simp)
  have hids : ∀ b ∈ after, b.Identified := fun b hb => has b (by simp [hb])
  have hadd := Action.added_of_verdict hg (verdict_of_split hok)
  obtain ⟨front, back, hds, hsub⟩ := exists_front he
  have hadded : (Action.effect (effects τ before) (.insertAll g)).at? (g.store, j) = some e := by
    simp only [Action.effect, Contents.at?_update_self, hds]
    exact Collection.get?_insertAll_of_front_free (hds ▸ hadd.distinct) hj
      (fun d hd k hk => hfront d (hsub d hd) k hk) hfree
  rw [effects_append, effects_append, effects_cons, effects_cons,
    at?_effects_of_not_named hids hafter, at?_effects_of_not_named hids hafter, hadded]
  exact (hadd.stored e he j hj).symm

theorem reached_or_not {made rest : List Action} {a : Action}
    (h : made ++ rest = before ++ a :: after) :
    (∃ pending, before = made ++ pending) ∨
      ∃ written, made = before ++ a :: written ∧ after = written ++ rest := by
  rcases List.append_eq_append_iff.mp h with ⟨pending, rfl, -⟩ | ⟨written, rfl, htail⟩
  · exact Or.inl ⟨pending, rfl⟩
  · cases written with
    | nil => exact Or.inl ⟨[], by simp⟩
    | cons b written =>
      obtain ⟨rfl, rfl⟩ := List.cons_eq_cons.mp htail
      exact Or.inr ⟨written, rfl, rfl⟩

/-- A strict insert that the first attempt did not reach finds its places free in the second one. -/
theorem at?_eq_none_of_not_reached {made pending : List Action} (has : ∀ a ∈ as, a.Identified)
    (hok : failures σ as = 0) (hsplit : as = (made ++ pending) ++ .insertAll g :: after)
    (hg : (Action.insertAll g).Names place) :
    (effects (effects σ made) (made ++ pending)).at? place = none := by
  by_cases hnamed : ∃ a ∈ made ++ pending, a.Names place
  · exact at?_eq_none_of_named_before has hok hsplit hg hnamed
  · have hnamed' : ∀ a ∈ made ++ pending, ¬ a.Names place := fun a ha hn => hnamed ⟨a, ha, hn⟩
    have hids : ∀ a ∈ made ++ pending, a.Identified := fun a ha =>
      has a (hsplit ▸ List.mem_append_left _ ha)
    rw [at?_effects_of_not_named hids hnamed',
      at?_effects_of_not_named (fun a ha => hids a (by simp [ha]))
        fun a ha => hnamed' a (by simp [ha]),
      ← at?_effects_of_not_named (σ := σ) hids hnamed']
    subst hsplit
    exact Action.at?_eq_none_of_verdict (has _ (by simp)) (verdict_of_split hok) hg

theorem at?_effects_of_reached {made written rest : List Action} (has : ∀ a ∈ as, a.Identified)
    (hok : failures σ as = 0) (hall : as = made ++ rest)
    (hmade : made = before ++ .insertAll g :: written) (hrest : after = written ++ rest)
    {e : Document} {j : String} (he : e ∈ g.documents) (hj : e.key? = some j)
    (hbefore : ∀ a ∈ before, ¬ a.Names (g.store, j))
    (hafter : ∀ a ∈ after, ¬ a.Names (g.store, j)) :
    (effects (effects σ made) as).at? (g.store, j) = (effects σ as).at? (g.store, j) := by
  have hsplit : as = before ++ .insertAll g :: after := by simp [hall, hmade, hrest]
  have hids : ∀ a ∈ made, a.Identified := fun a ha => has a (by simp [hall, ha])
  have hokMade : failures σ made = 0 := by
    rw [hall, failures_append] at hok
    omega
  have hstored : (effects σ made).at? (g.store, j) = some e := by
    have hadd := Action.added_of_verdict (has _ (by simp [hsplit]))
      (verdict_of_split (hmade ▸ hokMade))
    rw [hmade, effects_append, effects_cons, at?_effects_of_not_named
      (fun a ha => hids a (by simp [hmade, ha])) (fun a ha => hafter a (by simp [hrest, ha]))]
    exact hadd.stored e he j hj
  have hagain : (effects (effects σ made) before).at? (g.store, j) = some e := by
    rw [at?_effects_of_not_named (fun a ha => hids a (by simp [hmade, ha])) hbefore, hstored]
  have hadd := Action.added_of_verdict (has _ (by simp [hsplit])) (verdict_of_split (hsplit ▸ hok))
  obtain ⟨front, back, hds, -⟩ := exists_front he
  have hkept : (Action.effect (effects (effects σ made) before) (.insertAll g)).at? (g.store, j) =
      some e := by
    simp only [Action.effect, Contents.at?_update_self, hds]
    have htaken : (effects (effects σ made) before).at? (g.store, j) ≠ none := by simp [hagain]
    rw [Collection.get?_insertAll_of_taken (hds ▸ hadd.distinct) hj ⟨e, by simp, j, hj, htaken⟩]
    exact hagain
  rw [hsplit, effects_append, effects_append, effects_cons, effects_cons,
    at?_effects_of_not_named (fun a ha => has a (by simp [hsplit, ha])) hafter,
    at?_effects_of_not_named (fun a ha => has a (by simp [hsplit, ha])) hafter, hkept]
  exact (hadd.stored e he j hj).symm

theorem effects_again_of_not_strands {made rest : List Action} (has : ∀ a ∈ as, a.Identified)
    (hok : failures σ as = 0) (hmade : as = made ++ rest)
    (hno : ¬ Strands as (effects σ made)) (place : Place) :
    (effects (effects σ made) as).at? place = (effects σ as).at? place := by
  rcases last_naming as place with hnone | ⟨before, a, after, hsplit, ha, hafter⟩
  · rw [at?_effects_of_not_named has hnone, at?_effects_of_not_named has hnone,
      at?_effects_of_not_named (fun a ha => has a (by simp [hmade, ha]))
        fun a ha => hnone a (by simp [hmade, ha])]
  by_cases hover : a.Overwrites
  · rw [hsplit] at has ⊢
    rw [at?_effects_of_last_overwrites has hover ha hafter,
      at?_effects_of_last_overwrites has hover ha hafter]
  obtain ⟨store, j⟩ := place
  obtain ⟨g, rfl⟩ : ∃ g, a = .insertAll g := by
    cases a with
    | insertAll g => exact ⟨g, rfl⟩
    | update => exact absurd trivial hover
    | remove => exact absurd trivial hover
    | _ => exact ha.elim
  obtain ⟨rfl, e, he, hj⟩ := id ha
  have hnames : ∀ d, [d, e].Sublist g.documents → ∀ k, d.key? = some k →
      (Action.insertAll g).Names (g.store, k) :=
    fun d hsub k hk => ⟨rfl, d, hsub.subset (by simp), hk⟩
  have hids : ∀ a ∈ before, a.Identified := fun a ha => has a (by simp [hsplit, ha])
  by_cases hbefore : ∃ a ∈ before, a.Names (g.store, j)
  · -- removed and added again: only a taken place in front of it could be in the way
    refine at?_effects_of_front_free has hok hsplit he hj hafter ?_
      (at?_eq_none_of_named_before has hok hsplit ha hbefore)
    intro d hsub k hk
    by_contra htaken
    by_cases hd : ∃ a ∈ before, a.Names (g.store, k)
    · exact htaken (at?_eq_none_of_named_before has hok hsplit (hnames d hsub k hk) hd)
    · have hd' : ∀ a ∈ before, ¬ a.Names (g.store, k) := fun a ha hn => hd ⟨a, ha, hn⟩
      rw [at?_effects_of_not_named hids hd'] at htaken
      exact hno ⟨before, g, after, hsplit, d, e, k, j, hsub, hk, hj, hd', htaken, hbefore, hafter⟩
  · have hbefore' : ∀ a ∈ before, ¬ a.Names (g.store, j) := fun a ha hn => hbefore ⟨a, ha, hn⟩
    rcases reached_or_not (hmade.symm.trans hsplit) with ⟨pending, rfl⟩ | ⟨written, hw, hrest⟩
    · exact at?_effects_of_front_free has hok hsplit he hj hafter
        (fun d hsub k hk => at?_eq_none_of_not_reached has hok hsplit (hnames d hsub k hk))
        (at?_eq_none_of_not_reached has hok hsplit ha)
    · exact at?_effects_of_reached has hok hmade hw hrest he hj hbefore' hafter

theorem effects_again_of_strands {made : List Action} (has : ∀ a ∈ as, a.Identified)
    (hok : failures σ as = 0) (h : Strands as (effects σ made)) :
    ∃ place, (effects (effects σ made) as).at? place ≠ (effects σ as).at? place := by
  obtain ⟨before, g, after, hsplit, d, e, k, j, hsub, hk, hj, hnamed, htaken, hbefore, hafter⟩ := h
  refine ⟨(g.store, j), ?_⟩
  obtain ⟨front, back, hds, hd, he⟩ := List.cons_sublist_iff.mp hsub
  obtain ⟨between, back, rfl⟩ := List.append_of_mem (List.singleton_sublist.mp he)
  have hids : ∀ a ∈ before, a.Identified := fun a ha => has a (by simp [hsplit, ha])
  have hidsAfter : ∀ a ∈ after, a.Identified := fun a ha => has a (by simp [hsplit, ha])
  have hmem : e ∈ g.documents := hsub.subset (by simp)
  have hadd := Action.added_of_verdict (has _ (by simp [hsplit])) (verdict_of_split (hsplit ▸ hok))
  have hfree : (effects (effects σ made) before).at? (g.store, j) = none :=
    at?_eq_none_of_named_before has hok hsplit ⟨rfl, e, hmem, hj⟩ hbefore
  have hds' : g.documents = (front ++ between) ++ e :: back := by simp [hds]
  have hlost : (Action.effect (effects (effects σ made) before) (.insertAll g)).at? (g.store, j) =
      none := by
    rw [← at?_effects_of_not_named hids hnamed] at htaken
    simp only [Action.effect, Contents.at?_update_self, hds']
    rw [Collection.get?_insertAll_of_taken (hds' ▸ hadd.distinct) hj
      ⟨d, by simp [hd], k, hk, htaken⟩]
    exact hfree
  have hkept : (Action.effect (effects σ before) (.insertAll g)).at? (g.store, j) = some e :=
    hadd.stored e hmem j hj
  rw [hsplit, effects_append, effects_append, effects_cons, effects_cons,
    at?_effects_of_not_named hidsAfter hafter, at?_effects_of_not_named hidsAfter hafter, hlost,
    hkept]
  exact (Option.some_ne_none e).symm

end Retry

/-! ## Two attempts as programs -/

/-- A batch that succeeds when nothing disturbs it, is stopped by a failing call and then applied
again, comes to an end the second time. It leaves the contents of the undisturbed batch, unless it
strands a document. -/
theorem retry_restores_iff_not_strands (r : Replica Object) (batch : List (Intent Object))
    {w : World} (hw : w.InMemory) (hconv : Convertible r.bindings batch)
    {notices : List Notice} {report : Report}
    (hfree : ((r.synchronize batch).run w).2 = (notices, .ok report))
    (hnone : report.failedOperations = 0) {n : Nat} {e : Failure} {operation detail : String}
    (habort : ((r.synchronize batch).runFailing n e w).2.2 =
      .error (.transientWrite operation detail)) :
    let aborted := ((r.synchronize batch).runFailing n e w).1
    (∃ notices' report', ((r.synchronize batch).run aborted).2 = (notices', .ok report')) ∧
      ((∀ key, (((r.synchronize batch).run aborted).1.contents key).stored =
          (((r.synchronize batch).run w).1.contents key).stored) ↔
        ¬ Strands (planned r.bindings batch) aborted.contents) := by
  have hplan : r.synchronize batch = carryOut r.triage {} (planned r.bindings batch) := by
    rcases synchronize_cases r.bindings r.triage batch with h | ⟨f, h⟩
    · exact h
    · unfold Replica.synchronize at hfree
      rw [h] at hfree
      cases hfree
  have hkeyed := keyed_planned hconv
  have hids : ∀ a ∈ planned r.bindings batch, a.Identified :=
    fun a ha => Action.identified_of_keyed (hkeyed a ha)
  rw [hplan] at hfree habort ⊢
  obtain ⟨notices₁, report₁, hreport, hcontents, hcount⟩ :=
    carriedOut_of_keyed (t := r.triage) (p := {}) hw hkeyed
  have hok : failures w.contents (planned r.bindings batch) = 0 := by
    obtain rfl : report₁ = report := by
      have := hreport.symm.trans hfree
      simp only [Prod.mk.injEq, Except.ok.injEq] at this
      exact this.2
    simpa [hnone] using hcount.symm
  obtain ⟨hmem, made, rest, hmade, haborted⟩ := stopped hw hkeyed habort
  intro aborted
  obtain ⟨notices₂, report₂, hreport₂, hagain, -⟩ :=
    carriedOut_of_keyed (t := r.triage) (p := {}) hmem hkeyed
  refine ⟨⟨notices₂, report₂, hreport₂⟩, ?_⟩
  have hlook : (∀ key, (((carryOut r.triage {} (planned r.bindings batch)).run aborted).1.contents
        key).stored = (((carryOut r.triage {} (planned r.bindings batch)).run w).1.contents
          key).stored) ↔
      ∀ place, (effects (effects w.contents made) (planned r.bindings batch)).at? place =
        (effects w.contents (planned r.bindings batch)).at? place := by
    rw [hagain, hcontents, haborted]
    constructor
    · intro h place
      simp only [Contents.at?, h]
    · intro h key
      exact TextMap.ext_get? fun k => h (key, k)
  rw [hlook, haborted]
  constructor
  · intro h hstrands
    obtain ⟨place, hne⟩ := effects_again_of_strands hids hok hstrands
    exact hne (h place)
  · exact fun h => effects_again_of_not_strands hids hok hmade h

/-! A removal, two strict inserts and an update, of which the update fails at first. -/

def fruit (name : String) : Value := .ofFields [("name", .text name)]

def fruitIntent (kind : Kind) (name : String) : Intent Value :=
  { kind, typeName := "Fruit", object := fruit name }

def replacement : List (Intent Value) :=
  [fruitIntent .remove "pear", fruitIntent .insert "apple", fruitIntent .insert "pear",
    fruitIntent .update "plum"]

theorem inMemory_empty : (⟨.empty⟩ : World).InMemory := fun _ => ⟨rfl, rfl, rfl⟩

theorem convertible_replacement : Convertible fruitReplica.bindings replacement := by
  intro i hi b hb
  have htype : i.typeName = "Fruit" := by
    simp only [replacement, List.mem_cons, List.not_mem_nil, or_false] at hi
    rcases hi with rfl | rfl | rfl | rfl <;> rfl
  obtain rfl : fruits = b := by
    rw [htype] at hb
    exact Option.some.inj hb
  simp only [replacement, List.mem_cons, List.not_mem_nil, or_false] at hi
  rcases hi with rfl | rfl | rfl | rfl <;> exact ⟨_, _, rfl, rfl⟩

/-- The pear is lost when the update is tried again. -/
theorem retry_loses_reinserted_document :
    let w : World := ⟨.empty⟩
    let aborted := (fruitReplica.synchronize replacement).runFailing 2 (.connectivity "down") w
    let retried := (fruitReplica.synchronize replacement).run aborted.1
    let undisturbed := (fruitReplica.synchronize replacement).run w
    w.InMemory ∧ Convertible fruitReplica.bindings replacement ∧
      undisturbed.2 = ([], .ok { inserted := 2, insertBatches := 1, updated := 1, removed := 1 }) ∧
      aborted.2.2 =
        .error (.transientWrite "update on 'fruits'" "Connectivity error: down") ∧
      (undisturbed.1.contents.at? ("fruits", "\"pear\"")).isSome = true ∧
      (retried.1.contents.at? ("fruits", "\"pear\"")).isSome = false :=
  ⟨inMemory_empty, convertible_replacement, rfl, rfl, rfl, rfl⟩

def delivery : List (Intent Value) :=
  [fruitIntent .insert "apple", fruitIntent .insert "pear", fruitIntent .update "plum"]

theorem convertible_delivery : Convertible fruitReplica.bindings delivery := fun i hi =>
  convertible_replacement i (List.mem_cons_of_mem _ hi)

theorem not_strands_delivery (σ : Contents) :
    ¬ Strands (planned fruitReplica.bindings delivery) σ := by
  rintro ⟨before, g, after, hsplit, d, e, k, j, -, -, -, -, -, ⟨a, ha, -⟩, -⟩
  obtain ⟨first, last, hplan⟩ : ∃ g' d', planned fruitReplica.bindings delivery =
      [.insertAll g', .update "fruits" "fruits" d'] := ⟨_, _, rfl⟩
  rw [hplan] at hsplit
  cases before with
  | nil => cases ha
  | cons b before =>
    have hmem : Action.insertAll g ∈ [Action.update "fruits" "fruits" last] := by
      rw [(List.cons_eq_cons.mp hsplit).2]
      simp
    simp at hmem

/-- All three fruits are stored when the update is tried again. -/
theorem retry_restores_delivery :
    let w : World := ⟨.empty⟩
    let aborted := (fruitReplica.synchronize delivery).runFailing 1 (.timeout "late") w
    aborted.2.2 = .error (.transientWrite "update on 'fruits'" "Timed out: late") ∧
      ∀ key, (((fruitReplica.synchronize delivery).run aborted.1).1.contents key).stored =
        (((fruitReplica.synchronize delivery).run w).1.contents key).stored := by
  intro w aborted
  have hfree : ((fruitReplica.synchronize delivery).run w).2 =
      ([], .ok { inserted := 2, insertBatches := 1, updated := 1 }) := rfl
  have habort : aborted.2.2 =
      .error (.transientWrite "update on 'fruits'" "Timed out: late") := rfl
  exact ⟨habort, (retry_restores_iff_not_strands fruitReplica delivery inMemory_empty
    convertible_delivery hfree rfl habort).2.mpr (not_strands_delivery _)⟩

end Sync

end StoredObjects
