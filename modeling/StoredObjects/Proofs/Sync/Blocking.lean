import StoredObjects.Proofs.Sync.Flushing

/-! # Inserts that stand behind others

The strict inserts of one collection are made by one call, which stops at the first identity that is
taken. An insert whose own identity is free is therefore not sure to be carried out in a batch that
comes to a report: what counts are the documents that wait in front of it.
-/

namespace StoredObjects

namespace Sync

variable {Object : Type}

/-! ## Parts of a batch -/

section Parts

variable {t : Triage} {p : Progress} {as : List Action} {w : World} {place : Place}

theorem proceed_cases (t : Triage) (p : Progress) (a : Action) (rest : List Action)
    (r : Except Failure Unit) :
    (∃ q, proceed t p a rest r = carryOut t q rest) ∨
      ∃ result, proceed t p a rest r = .done result := by
  cases r with
  | ok u => exact Or.inl ⟨_, rfl⟩
  | error e =>
    simp only [proceed]
    cases (t.decide a.kind a.collection a.documents e).2 with
    | ok u => exact Or.inl ⟨_, rfl⟩
    | error f => exact Or.inr ⟨_, rfl⟩

theorem store_attempt_of_avoids {a : Action} {store : String} (ha : a.Avoids store) (w : World) :
    (a.attempt.run w).1.store store = w.store store := by
  cases a with
  | insertAll g => exact World.store_setStore_of_ne w _ (Ne.symm ha)
  | update => exact World.store_setStore_of_ne w _ (Ne.symm ha)
  | remove => exact World.store_setStore_of_ne w _ (Ne.symm ha)
  | _ => rfl

theorem store_carryOut_of_avoids {store : String} (has : ∀ a ∈ as, a.Avoids store) :
    ((carryOut t p as).run w).1.store store = w.store store := by
  induction as generalizing p w with
  | nil => rfl
  | cons a as ih =>
    have hfirst := store_attempt_of_avoids (has a List.mem_cons_self) w
    rw [run_carryOut_cons]
    rcases proceed_cases t p a as (a.attempt.run w).2 with ⟨q, hq⟩ | ⟨result, hr⟩
    · rw [hq, ih fun b hb => has b (List.mem_cons_of_mem _ hb), hfirst]
    · rw [hr]
      exact hfirst

theorem names_of_resolve {a : Action} {supplies : String → Nat → String}
    {issued : String → Nat} (hn : (a.resolve supplies issued).Names place) :
    a.Names place ∨ ∃ n, Document.keyOf (.text (supplies place.1 n)) = place.2 := by
  cases a with
  | insertAll g =>
    obtain ⟨hstore, d, hd, hk⟩ := hn
    rcases Store.key?_of_mem_identified hd hk with ⟨e, he, hk⟩ | ⟨n, hn⟩
    · exact Or.inl ⟨hstore, e, he, hk⟩
    · exact Or.inr ⟨issued g.store + n, hstore ▸ hn⟩
  | _ => exact Or.inl hn

theorem exists_of_mem_resolved {supplies : String → Nat → String} {issued : String → Nat}
    {x : Action} (hx : x ∈ resolved supplies issued as) :
    ∃ a ∈ as, ∃ issued', x = a.resolve supplies issued' := by
  induction as generalizing issued with
  | nil => cases hx
  | cons a as ih =>
    rcases List.mem_cons.mp hx with rfl | hx
    · exact ⟨a, List.mem_cons_self, issued, rfl⟩
    · obtain ⟨b, hb, issued', rfl⟩ := ih hx
      exact ⟨b, List.mem_cons_of_mem _ hb, issued', rfl⟩

/-- A batch leaves a place alone that it does not name and that no new identity can be. -/
theorem at?_carryOut_of_not_named (hw : w.InMemory) (has : ∀ a ∈ as, a.Planned)
    {notices : List Notice} {report : Report}
    (hok : ((carryOut t p as).run w).2 = (notices, .ok report))
    (hnamed : ∀ a ∈ as, ¬ a.Names place)
    (hsupply : ∀ n, Document.keyOf (.text (w.supplies place.1 n)) ≠ place.2) :
    ((carryOut t p as).run w).1.contents.at? place = w.contents.at? place := by
  rw [(carriedOut_of_ok hw has hok).contents]
  apply at?_effects_of_not_named
  · intro x hx
    obtain ⟨a, ha, issued, rfl⟩ := exists_of_mem_resolved hx
    exact Action.identified_resolve (has a ha) _ _
  · intro x hx hn
    obtain ⟨a, ha, issued, rfl⟩ := exists_of_mem_resolved hx
    rcases names_of_resolve hn with hn | ⟨n, hn⟩
    · exact hnamed a ha hn
    · exact hsupply n hn

theorem contents_carryOut_insertAll {g : Group} {notices : List Notice} {report : Report}
    (hw : w.InMemory) (hok : ((carryOut t p [.insertAll g]).run w).2 = (notices, .ok report)) :
    ((carryOut t p [.insertAll g]).run w).1.contents g.store =
      ((w.store g.store).collection.insertAll (Store.identified
        (fun i => (w.store g.store).supply ((w.store g.store).issued + i)) g.documents)).1 := by
  have hplanned : ∀ a ∈ [Action.insertAll g], a.Planned := by
    intro a ha
    obtain rfl := List.mem_singleton.mp ha
    trivial
  rw [(carriedOut_of_ok hw hplanned hok).contents]
  simp [resolved, Action.resolve, Action.effect, World.contents, World.supplies, World.issued]

end Parts

/-! ## Whole batches -/

/-- Every binding names the collection of its store. -/
def Hosts (w : World) (bindings : List (Binding Object)) : Prop :=
  ∀ b ∈ bindings, (w.contents b.store).name = b.collection

theorem bound_map_snd {bindings : List (Binding Object)}
    {intents : List (Binding Object × Intent Object)}
    (h : ∀ p ∈ intents, Binding.find? bindings p.2.typeName = some p.1) :
    bound bindings (intents.map Prod.snd) = .ok intents := by
  induction intents with
  | nil => rfl
  | cons p intents ih =>
    have hrest := ih fun q hq => h q (List.mem_cons_of_mem _ hq)
    unfold bound at hrest ⊢
    simp only [List.map_cons, List.mapM_cons, h p List.mem_cons_self, hrest]
    rfl

theorem wired_of_ofBindings {settings : Settings} {bindings : List (Binding Object)}
    {built : Replica Object} (hbuilt : Replica.ofBindings settings bindings = .ok built)
    {w : World} (hhosts : Hosts w bindings) : Wired bindings := by
  constructor
  · intro b hb c hc heq
    exact Replica.eq_of_collection_eq hbuilt hb hc heq
  · intro b hb c hc heq
    rw [← hhosts b hb, ← hhosts c hc, heq]

/-- The document `d`, made with those of `front` and `back` by one call, when no other has its
key. -/
theorem at?_carryOut_behind {t : Triage} {p : Progress} {w u : World} {g : Group}
    {front back : List Document} {d : Document} {k : String} (hw : w.InMemory)
    (hg : g.documents = front ++ d :: back) (hstore : w.store g.store = u.store g.store)
    (hu : u.InMemory) (hk : d.key? = some k) (hfree : u.contents.at? (g.store, k) = none)
    (hne : ∀ e ∈ front ++ back, e.key? ≠ some k)
    (hsupply : ∀ n, Document.keyOf (.text ((u.store g.store).supply n)) ≠ k)
    {notices : List Notice} {report : Report}
    (hok : ((carryOut t p [.insertAll g]).run w).2 = (notices, .ok report)) :
    let accepted := ((Program.perform g.store (.insertAll front)).run u).2 = .ok ()
    let after := ((carryOut t p [.insertAll g]).run w).1.contents
    (accepted → after.at? (g.store, k) = some d) ∧
      (¬ accepted → after.at? (g.store, k) = none) := by
  have hreply : ((Program.perform g.store (.insertAll front)).run u).2 =
      ((u.store g.store).collection.insertAll (Store.identified
        (fun i => (u.store g.store).supply ((u.store g.store).issued + i)) front)).2 :=
    World.reply_answer (Store.answers_insertAll (hu g.store) front)
  have hcollection := contents_carryOut_insertAll hw hok
  rw [hstore, hg, Store.identified_append, Store.identified_cons,
    Document.orIdentity_of_key? hk] at hcollection
  intro accepted after
  have haccepted : accepted ↔ ((u.store g.store).collection.insertAll (Store.identified
      (fun i => (u.store g.store).supply ((u.store g.store).issued + i)) front)).2 = .ok () := by
    rw [← hreply]
  have hat : after.at? (g.store, k) = _ :=
    congrArg (fun c : Collection => c.stored.get? k) hcollection
  rw [haccepted, hat]
  apply Collection.get?_insertAll_behind hk hfree
  · intro e he
    rcases List.mem_append.mp he with he | he <;> exact Store.keyed_identified _ _ e he
  · intro e he hek
    rcases List.mem_append.mp he with he | he <;>
      rcases Store.key?_of_mem_identified he hek with ⟨x, hx, hxk⟩ | ⟨n, hn⟩
    · exact hne x (List.mem_append_left _ hx) hxk
    · exact hsupply _ hn
    · exact hne x (List.mem_append_right _ hx) hxk
    · exact hsupply _ hn

theorem at?_carryOut_rest {t : Triage} {p : Progress} {w : World} {mid post : List Action}
    {place : Place} (hw : w.InMemory) (hmid : ∀ a ∈ mid, a.Avoids place.1)
    (hpost : ∀ a ∈ post, a.Planned) {notices : List Notice} {report : Report}
    (hok : ((carryOut t p (mid ++ post)).run w).2 = (notices, .ok report))
    (hnamed : ∀ a ∈ post, ¬ a.Names place)
    (hsupply : ∀ n, Document.keyOf (.text (w.supplies place.1 n)) ≠ place.2) :
    ((carryOut t p (mid ++ post)).run w).1.contents.at? place = w.contents.at? place := by
  obtain ⟨q, -, hrun⟩ := run_carryOut_split hok
  have hmem := Program.inMemory_run hw (carryOut t p mid)
  have hsup := Program.supplies_run hw (carryOut t p mid)
  have hstore := store_carryOut_of_avoids (t := t) (p := p) (w := w) hmid
  rw [hrun] at hok ⊢
  rw [at?_carryOut_of_not_named hmem hpost hok hnamed (by rwa [hsup])]
  simp only [Contents.at?, World.contents, hstore]

/-- The same for a whole batch: actions on other stores come around the call, and what comes first
and last does not name the place. -/
theorem at?_carryOut_around {t : Triage} {p : Progress} {w : World} {as pre mid post : List Action}
    {g : Group} {front back : List Document} {d : Document} {k : String} (hw : w.InMemory)
    (has : ∀ a ∈ as, a.Planned) (hpost : ∀ a ∈ post, a.Planned)
    (hpre : ∀ a ∈ pre, a.Avoids g.store) (hmid : ∀ a ∈ mid, a.Avoids g.store)
    (hg : g.documents = front ++ d :: back) (hk : d.key? = some k)
    (hfree : w.contents.at? (g.store, k) = none) (hasn : ∀ a ∈ as, ¬ a.Names (g.store, k))
    (hpostn : ∀ a ∈ post, ¬ a.Names (g.store, k)) (hne : ∀ e ∈ front ++ back, e.key? ≠ some k)
    (hsupply : ∀ n, Document.keyOf (.text (w.supplies g.store n)) ≠ k)
    {notices : List Notice} {report : Report}
    (hok : ((carryOut t p (as ++ (pre ++ ([.insertAll g] ++ (mid ++ post))))).run w).2 =
      (notices, .ok report)) :
    let accepted := ((Program.perform g.store (.insertAll front)).run
      ((carryOut t p as).run w).1).2 = .ok ()
    let after :=
      ((carryOut t p (as ++ (pre ++ ([.insertAll g] ++ (mid ++ post))))).run w).1.contents
    (accepted → after.at? (g.store, k) = some d) ∧
      (¬ accepted → after.at? (g.store, k) = none) := by
  -- the world is followed from part to part
  obtain ⟨q₁, hok₁, hrun₁⟩ := run_carryOut_split hok
  have hmem₁ := Program.inMemory_run hw (carryOut t p as)
  have hsup₁ := Program.supplies_run hw (carryOut t p as)
  have hfree₁ := (at?_carryOut_of_not_named hw has hok₁ hasn hsupply).trans hfree
  rw [hrun₁] at hok ⊢
  generalize ((carryOut t p as).run w).1 = u at hmem₁ hsup₁ hfree₁ hok ⊢
  rw [← hsup₁] at hsupply
  obtain ⟨q₂, -, hrun₂⟩ := run_carryOut_split hok
  have hmem₂ := Program.inMemory_run hmem₁ (carryOut t q₁ pre)
  have hsup₂ := Program.supplies_run hmem₁ (carryOut t q₁ pre)
  have hstore₂ := store_carryOut_of_avoids (t := t) (p := q₁) (w := u) hpre
  rw [hrun₂] at hok ⊢
  generalize ((carryOut t q₁ pre).run u).1 = v at hmem₂ hsup₂ hstore₂ hok ⊢
  obtain ⟨q₃, hok₃, hrun₃⟩ := run_carryOut_split hok
  have hmem₃ := Program.inMemory_run hmem₂ (carryOut t q₂ [.insertAll g])
  have hsup₃ := Program.supplies_run hmem₂ (carryOut t q₂ [.insertAll g])
  have hbehind := at?_carryOut_behind hmem₂ hg hstore₂ hmem₁ hk hfree₁ hne hsupply hok₃
  rw [hrun₃] at hok ⊢
  generalize ((carryOut t q₂ [.insertAll g]).run v).1 = x at hmem₃ hsup₃ hbehind hok ⊢
  rw [← hsup₂, ← hsup₃] at hsupply
  intro accepted after
  have hat : after.at? (g.store, k) = x.contents.at? (g.store, k) :=
    at?_carryOut_rest hmem₃ hmid hpost hok hpostn hsupply
  rw [hat]
  exact hbehind

/-- An insert whose identity nothing else has is carried out exactly when the inserts that wait in
front of it are: those of its collection since the last update or removal, all made by one call at
that point of the batch. -/
theorem insert_depends_on_front {settings : Settings} {r built : Replica Object}
    (hbuilt : Replica.ofBindings settings r.bindings = .ok built) {batch : List (Intent Object)}
    {w : World} (hw : w.InMemory) (hhosts : Hosts w r.bindings)
    {before after : List (Binding Object × Intent Object)} {b : Binding Object}
    {i : Intent Object} (hbound : bound r.bindings batch = .ok (before ++ (b, i) :: after))
    (hkind : i.kind = .insert) (hecho : i.isEcho = false) {d : Document} {k : String}
    (hd : b.document i.object = .ok d) (hk : d.key? = some k)
    (hfree : w.contents.at? (b.store, k) = none)
    (hother : ∀ p ∈ before ++ after, ¬ Touches (b.store, k) p)
    (hsupply : ∀ n, Document.keyOf (.text ((w.store b.store).supply n)) ≠ k)
    {notices : List Notice} {report : Report}
    (hok : ((r.synchronize batch).run w).2 = (notices, .ok report)) :
    let front := queued b.collection (before.rtakeWhile fun p => !flushes p)
    let flushed :=
      ((r.synchronize ((before.rdropWhile fun p => !flushes p).map Prod.snd)).run w).1
    let accepted := ((Program.perform b.store (.insertAll front)).run flushed).2 = .ok ()
    (accepted → ((r.synchronize batch).run w).1.contents.at? (b.store, k) = some d) ∧
      (¬ accepted → ((r.synchronize batch).run w).1.contents.at? (b.store, k) = none) := by
  have hmem := mem_bound hbound
  have hbindings : ∀ p ∈ before ++ (b, i) :: after, p.1 ∈ r.bindings :=
    fun p hp => Binding.mem_of_find? (hmem p hp).2
  have hb : b ∈ r.bindings := hbindings (b, i) (by simp)
  have hothers : ∀ p ∈ before ++ after, p.1 ∈ r.bindings := by
    intro p hp
    apply hbindings
    rcases List.mem_append.mp hp with hp | hp <;> simp [hp]
  have hwired := wired_of_ofBindings hbuilt hhosts
  -- the parts of the batch
  have hearlier : ∀ p ∈ before.rdropWhile fun p => !flushes p, p ∈ before ++ after :=
    fun p hp => List.mem_append_left _ ((List.rdropWhile_prefix _ _).subset hp)
  have hwaits : ∀ p ∈ before.rtakeWhile fun p => !flushes p, p ∈ before ++ after :=
    fun p hp => List.mem_append_left _ ((List.rtakeWhile_suffix _ _).subset hp)
  have hquiet : ∀ p ∈ after.takeWhile fun p => !flushes p, p ∈ before ++ after :=
    fun p hp => List.mem_append_right _ ((List.takeWhile_sublist _).subset hp)
  have hlater : ∀ p ∈ after.dropWhile fun p => !flushes p, p ∈ before ++ after :=
    fun p hp => List.mem_append_right _ ((List.dropWhile_sublist _).subset hp)
  have hnames : ∀ intents : List (Binding Object × Intent Object),
      (∀ p ∈ intents, p ∈ before ++ after) → ∀ a ∈ plan [] intents, ¬ a.Names (b.store, k) :=
    fun intents hsub => not_names_of_untouched hbuilt (fun p hp => hothers p (hsub p hp))
      fun p hp => hother p (hsub p hp)
  have hkeys : ∀ intents : List (Binding Object × Intent Object),
      (∀ p ∈ intents, p ∈ before ++ after) →
        ∀ e ∈ queued b.collection intents, e.key? ≠ some k :=
    fun intents hsub => key?_ne_of_untouched hwired hb (fun p hp => hothers p (hsub p hp))
      fun p hp => hother p (hsub p hp)
  have hplan : r.synchronize batch =
      carryOut r.triage {} (plan [] (before ++ (b, i) :: after)) := by
    simp only [Replica.synchronize, synchronize, hbound]
  have hplan' : r.synchronize ((before.rdropWhile fun p => !flushes p).map Prod.snd) =
      carryOut r.triage {} (plan [] (before.rdropWhile fun p => !flushes p)) := by
    have hfind : ∀ p ∈ before.rdropWhile fun p => !flushes p,
        Binding.find? r.bindings p.2.typeName = some p.1 := by
      intro p hp
      exact (hmem p (List.mem_append_left _ ((List.rdropWhile_prefix _ _).subset hp))).2
    simp only [Replica.synchronize, synchronize, bound_map_snd hfind]
  obtain ⟨pre, g, mid, hsplit, hpre, hmid, hgs, hgd⟩ :=
    exists_group_around hwired hbindings hkind hecho hd
  have hnamesEarlier := hnames _ hearlier
  have hnamesLater := hnames _ hlater
  rw [hplan, hsplit] at hok
  rw [hplan, hplan', hsplit]
  rw [← hgs] at hpre hmid hfree hnamesEarlier hnamesLater hsupply ⊢
  apply at?_carryOut_around hw planned_of_mem_plan planned_of_mem_plan hpre hmid hgd hk hfree
    hnamesEarlier hnamesLater ?_ hsupply hok
  intro e he
  rcases List.mem_append.mp he with he | he
  · exact hkeys _ hwaits e he
  · exact hkeys _ hquiet e he

/-! An apple is stored, and a pear is to be added behind another apple, or in front of it. -/

def appleStored : World := ((fruitReplica.synchronize [fruitIntent .insert "apple"]).run ⟨.empty⟩).1

theorem inMemory_appleStored : appleStored.InMemory := Program.inMemory_run inMemory_empty _

theorem hosts_appleStored : Hosts appleStored fruitReplica.bindings := by
  intro b hb
  obtain rfl := List.mem_singleton.mp hb
  rfl

theorem fruitReplica_built :
    Replica.ofBindings { sync := { transientPatterns := [] } } fruitReplica.bindings =
      .ok { fruitReplica with settings := { sync := { transientPatterns := [] } } } := rfl

theorem not_touches_pear {name : String} (kind : Kind)
    (hname : Document.keyOf (.text name) ≠ "\"pear\"") :
    ¬ Touches ("fruits", "\"pear\"") (fruits, fruitIntent kind name) := by
  rintro ⟨-, d, hd, hk⟩
  obtain rfl := Except.ok.inj hd
  exact hname (Option.some.inj hk)

/-- The pear is not stored, although the batch comes to a report and nothing else has to do with the
pear. -/
theorem taken_apple_keeps_pear_out :
    let batch := [fruitIntent .insert "apple", fruitIntent .insert "pear"]
    let place : Place := ("fruits", "\"pear\"")
    (∃ settings built, Replica.ofBindings settings fruitReplica.bindings = .ok built) ∧
      appleStored.InMemory ∧ Hosts appleStored fruitReplica.bindings ∧
      bound fruitReplica.bindings batch =
        .ok [(fruits, fruitIntent .insert "apple"), (fruits, fruitIntent .insert "pear")] ∧
      (fruitIntent .insert "pear").isEcho = false ∧
      Touches place (fruits, fruitIntent .insert "pear") ∧
      ¬ Touches place (fruits, fruitIntent .insert "apple") ∧
      (appleStored.contents.at? place).isSome = false ∧
      ((fruitReplica.synchronize batch).run appleStored).2.2 = .ok { failedOperations := 1 } ∧
      (((fruitReplica.synchronize batch).run appleStored).1.contents.at? place).isSome = false :=
  ⟨⟨_, _, fruitReplica_built⟩, inMemory_appleStored, hosts_appleStored, rfl, rfl,
    ⟨rfl, _, rfl, rfl⟩, not_touches_pear .insert (by decide), rfl, rfl, rfl⟩

/-- The pear is stored behind a cherry and in front of the apple, and the batch reports the same
failure. -/
theorem pear_stored_in_front :
    let batch := [fruitIntent .update "plum", fruitIntent .insert "cherry",
      fruitIntent .insert "pear", fruitIntent .insert "apple"]
    ((fruitReplica.synchronize batch).run appleStored).2.2 =
        .ok { updated := 1, failedOperations := 1 } ∧
      ∃ d, fruits.document (fruit "pear") = .ok d ∧
        ((fruitReplica.synchronize batch).run appleStored).1.contents.at?
          ("fruits", "\"pear\"") = some d := by
  intro batch
  obtain ⟨notices, hok⟩ : ∃ notices, ((fruitReplica.synchronize batch).run appleStored).2 =
      (notices, .ok { updated := 1, failedOperations := 1 }) := ⟨_, rfl⟩
  have hbound : bound fruitReplica.bindings batch = .ok
      ([(fruits, fruitIntent .update "plum"), (fruits, fruitIntent .insert "cherry")] ++
        (fruits, fruitIntent .insert "pear") :: [(fruits, fruitIntent .insert "apple")]) := rfl
  have hother : ∀ p ∈ [(fruits, fruitIntent .update "plum"), (fruits, fruitIntent .insert "cherry")]
      ++ [(fruits, fruitIntent .insert "apple")], ¬ Touches ("fruits", "\"pear\"") p := by
    intro p hp
    simp only [List.cons_append, List.nil_append, List.mem_cons, List.not_mem_nil, or_false] at hp
    rcases hp with rfl | rfl | rfl
    · exact not_touches_pear .update (by decide)
    · exact not_touches_pear .insert (by decide)
    · exact not_touches_pear .insert (by decide)
  have hsupply : ∀ n, Document.keyOf (.text ((appleStored.store "fruits").supply n)) ≠
      "\"pear\"" := by
    intro n
    change Document.keyOf (.text "") ≠ "\"pear\""
    decide
  refine ⟨by rw [hok], _, rfl, ?_⟩
  exact (insert_depends_on_front fruitReplica_built inMemory_appleStored hosts_appleStored hbound
    rfl rfl rfl rfl rfl hother hsupply hok).1 rfl

end Sync

end StoredObjects
