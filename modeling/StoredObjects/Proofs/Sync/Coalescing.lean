import StoredObjects.Proofs.Replica.Wiring
import StoredObjects.Proofs.Sync.Retry

/-! # Inserts that wait

A batch holds its inserts back and writes those of one collection by one call, behind intents that
came later. Where nothing fails this cannot be told from intents that are applied one at a time, in
the order of the batch: a strict insert that succeeds commutes with any other that does, and nothing
that looks at their places comes in between.
-/

namespace StoredObjects

namespace Sync

variable {Object : Type}

/-- An echo, or the removal of an object whose document is to stay. -/
def passedOver : Binding Object × Intent Object → Bool
  | (b, i) => i.isEcho || (i.kind == .remove && b.type.keepOnRemove)

def applied (intents : List (Binding Object × Intent Object)) :
    List (Binding Object × Intent Object) :=
  intents.filter fun p => !passedOver p

def single : Binding Object × Intent Object → Program (Except Failure Unit)
  | (b, i) =>
    match b.document i.object with
    | .error e => .done (.error e)
    | .ok d =>
      match i.kind with
      | .insert => do return (← Program.perform b.store (.insert d)).map fun _ => ()
      | .update => .perform b.store (.update d)
      | .remove => .perform b.store (.delete (.ofIdentity (d.identity?.getD .null)))

def oneByOne : List (Binding Object × Intent Object) → Program (Except Failure Unit)
  | [] => .done (.ok ())
  | p :: rest => do
    match ← single p with
    | .ok () => oneByOne rest
    | .error e => return .error e

def Touches (place : Place) : Binding Object × Intent Object → Prop
  | (b, i) => place.1 = b.store ∧ ∃ d, b.document i.object = .ok d ∧ d.key? = some place.2

def leftBy : Binding Object × Intent Object → Option Document
  | (b, i) => if i.kind = .remove then none else (b.document i.object).toOption

/-- The contents `τ` come from `σ`, every place as the last of the intents left it. -/
structure LastWins (intents : List (Binding Object × Intent Object)) (σ τ : Contents) : Prop where
  untouched : ∀ place, (∀ p ∈ intents, ¬ Touches place p) → τ.at? place = σ.at? place
  last : ∀ place before p after, intents = before ++ p :: after → Touches place p →
    (∀ q ∈ after, ¬ Touches place q) → τ.at? place = leftBy p

/-- Every object that is not passed over has a document, and the document an identity. -/
def Writable (bindings : List (Binding Object)) (batch : List (Intent Object)) : Prop :=
  ∀ i ∈ batch, ∀ b, Binding.find? bindings i.typeName = some b → passedOver (b, i) = false →
    ∃ d k, b.document i.object = .ok d ∧ d.key? = some k

/-! ## One intent, one action -/

def Action.insertOne (store collection : String) (d : Document) : Action :=
  .insertAll ⟨store, collection, [d]⟩

/-- The action of an intent that nothing waits in front of. -/
def alone : Binding Object × Intent Object → Action
  | (b, i) =>
    match b.document i.object with
    | .error e => .refuse i.kind b.collection [] e
    | .ok d =>
      match i.kind with
      | .insert => .insertOne b.store b.collection d
      | .update => .update b.store b.collection d
      | .remove =>
        match d.identity? with
        | some identity => .remove b.store b.collection identity
        | none => .refuse .remove b.collection [d]
            (.illegalArgument s!"cannot remove '{b.type.name}' without identity")

theorem alone_of_update {b : Binding Object} {i : Intent Object} (hkind : i.kind = .update) :
    alone (b, i) = updateAction b i.object := by
  cases hdocument : b.document i.object <;> simp only [alone, updateAction, hkind, hdocument]

theorem alone_of_remove {b : Binding Object} {i : Intent Object} (hkind : i.kind = .remove) :
    alone (b, i) = removeAction b i.object := by
  cases hdocument : b.document i.object with
  | error e => simp only [alone, removeAction, hkind, hdocument]
  | ok d =>
    cases hidentity : d.identity? <;>
      simp only [alone, removeAction, hkind, hdocument, hidentity]

section Alone

variable {p : Binding Object × Intent Object} {d : Document} {k : String} {σ : Contents}
  {place : Place}

theorem verdict_insertOne {store c : String} :
    (Action.insertOne store c d).verdict σ = .ok () ↔
      ∃ k, d.key? = some k ∧ σ.at? (store, k) = none := by
  simp only [Action.insertOne, Action.verdict]
  constructor
  · intro h
    cases hk : d.key? with
    | none => simp [Collection.insertAll, Collection.insert, Collection.keyFor, hk, bind,
        Except.bind] at h
    | some k =>
      refine ⟨k, rfl, ?_⟩
      cases hfree : (σ store).stored.get? k with
      | none => exact hfree
      | some e =>
        rw [Collection.insertAll_of_taken hk hfree] at h
        cases h
  · rintro ⟨k, hk, hfree⟩
    rw [Collection.insertAll_of_free hk hfree]
    rfl

theorem effect_insertOne {store collection : String} (hk : d.key? = some k)
    (hfree : σ.at? (store, k) = none) :
    (Action.insertOne store collection d).effect σ =
      Function.update σ store ((σ store).put k d) := by
  simp only [Action.insertOne, Action.effect]
  rw [Collection.insertAll_of_free hk hfree]
  rfl

theorem keyed_alone (hd : p.1.document p.2.object = .ok d) (hk : d.key? = some k) :
    (alone p).Keyed := by
  obtain ⟨b, i⟩ := p
  obtain ⟨v, hv, -⟩ := Option.map_eq_some_iff.mp hk
  simp only at hd
  cases hkind : i.kind with
  | insert =>
    simp only [alone, hkind, hd]
    intro e he
    obtain rfl := List.mem_singleton.mp he
    exact ⟨k, hk⟩
  | update =>
    simp only [alone, hkind, hd]
    exact ⟨k, hk⟩
  | remove =>
    simp only [alone, hkind, hd, hv]
    exact Document.isNull_of_identity? hv

theorem names_alone : (alone p).Names place ↔ Touches place p := by
  obtain ⟨b, i⟩ := p
  cases hd : b.document i.object with
  | error e =>
    simp [alone, hd, Action.Names, Touches]
  | ok d =>
    cases hkind : i.kind with
    | insert => simp [alone, hkind, hd, Action.insertOne, Action.Names, Touches]
    | update => simp [alone, hkind, hd, Action.Names, Touches]
    | remove =>
      cases hv : d.identity? with
      | none => simp [alone, hkind, hd, hv, Action.Names, Touches, Document.key?]
      | some v => simp [alone, hkind, hd, hv, Action.Names, Touches, Document.key?]

theorem leaves_alone (hd : p.1.document p.2.object = .ok d) (hk : d.key? = some k)
    (ht : Touches place p) : (alone p).leaves place = leftBy p := by
  obtain ⟨b, i⟩ := p
  obtain ⟨v, hv, -⟩ := Option.map_eq_some_iff.mp hk
  obtain ⟨-, e, he, hplace⟩ := ht
  simp only at hd
  obtain rfl := Except.ok.inj (hd.symm.trans he)
  cases hkind : i.kind with
  | insert => simp [alone, hkind, hd, Action.insertOne, Action.leaves, leftBy, hplace,
      Except.toOption]
  | update => simp [alone, hkind, hd, Action.leaves, leftBy, Except.toOption]
  | remove => simp [alone, hkind, hd, hv, Action.leaves, leftBy]

theorem run_single {w : World} (hw : w.InMemory) (hd : p.1.document p.2.object = .ok d)
    (hk : d.key? = some k) (hok : (alone p).verdict w.contents = .ok ()) :
    ((single p).run w).1.InMemory ∧
      ((single p).run w).1.contents = (alone p).effect w.contents ∧
      ((single p).run w).2 = .ok () := by
  obtain ⟨b, i⟩ := p
  obtain ⟨v, hv, hvk⟩ := Option.map_eq_some_iff.mp hk
  simp only at hd
  cases hkind : i.kind with
  | insert =>
    simp only [alone, hkind, hd] at hok ⊢
    obtain ⟨j, hj, hfree⟩ := verdict_insertOne.mp hok
    have h := Store.answers_insert (hw b.store) hj hfree
    rw [effect_insertOne hj hfree]
    have hrun : (single (b, i)).run w =
        ((w.answer b.store (.insert d)).1,
          (w.answer b.store (.insert d)).2.map fun _ => ()) := by
      simp only [single, hd, hkind]
      rfl
    rw [hrun]
    refine ⟨hw.answer b.store (.insert d), World.contents_answer h, ?_⟩
    rw [World.reply_answer h]
    rfl
  | update =>
    have h := Store.answers_update (hw b.store) hk
    have hrun : (single (b, i)).run w = w.answer b.store (.update d) := by
      simp only [single, hd, hkind]
      rfl
    rw [hrun]
    simp only [alone, hkind, hd, Action.effect_update hk]
    exact ⟨hw.answer b.store (.update d), World.contents_answer h, World.reply_answer h⟩
  | remove =>
    have hnull := Document.isNull_of_identity? hv
    have h := Store.answers_delete (hw b.store) hnull
    have hrun : (single (b, i)).run w = w.answer b.store (.delete (.ofIdentity v)) := by
      simp only [single, hd, hkind]
      rw [show d.identity?.getD .null = v by rw [hv]; rfl]
      rfl
    rw [hrun]
    simp only [alone, hkind, hd, hv, Action.effect_remove hnull]
    exact ⟨hw.answer b.store (.delete (.ofIdentity v)), World.contents_answer h,
      World.reply_answer h⟩

theorem run_oneByOne {intents : List (Binding Object × Intent Object)} {w : World}
    (hw : w.InMemory)
    (hdocs : ∀ p ∈ intents, ∃ d k, p.1.document p.2.object = .ok d ∧ d.key? = some k)
    (hok : failures w.contents (intents.map alone) = 0) :
    ((oneByOne intents).run w).2 = .ok () ∧
      ((oneByOne intents).run w).1.contents = effects w.contents (intents.map alone) := by
  induction intents generalizing w with
  | nil => exact ⟨rfl, rfl⟩
  | cons p rest ih =>
    obtain ⟨d, k, hd, hk⟩ := hdocs p List.mem_cons_self
    obtain ⟨hfirst, hrest⟩ := verdict_of_failures_eq_zero hok
    obtain ⟨hmem, hcontents, hreply⟩ := run_single hw hd hk hfirst
    have hrun : (oneByOne (p :: rest)).run w = (oneByOne rest).run ((single p).run w).1 := by
      refine (Program.run_bind w (single p) _).trans ?_
      rw [hreply]
    rw [hrun, List.map_cons, effects_cons, ← hcontents]
    rw [← hcontents] at hrest
    exact ih hmem (fun q hq => hdocs q (List.mem_cons_of_mem _ hq)) hrest

/-- Actions of which none fails leave every place as the last intent about it wants it. -/
theorem lastWins_effects {intents : List (Binding Object × Intent Object)}
    (hdocs : ∀ p ∈ intents, ∃ d k, p.1.document p.2.object = .ok d ∧ d.key? = some k)
    (hok : failures σ (intents.map alone) = 0) :
    LastWins intents σ (effects σ (intents.map alone)) := by
  have hids : ∀ a ∈ intents.map alone, a.Identified := by
    intro a ha
    obtain ⟨p, hp, rfl⟩ := List.mem_map.mp ha
    obtain ⟨d, k, hd, hk⟩ := hdocs p hp
    exact Action.identified_of_keyed (keyed_alone hd hk)
  constructor
  · intro place hnone
    apply at?_effects_of_not_named hids
    intro a ha
    obtain ⟨p, hp, rfl⟩ := List.mem_map.mp ha
    exact fun hn => hnone p hp (names_alone.mp hn)
  · intro place before p after hsplit ht hafter
    have hp : p ∈ intents := by simp [hsplit]
    obtain ⟨d, k, hd, hk⟩ := hdocs p hp
    rw [← leaves_alone hd hk ht]
    have hmap : intents.map alone = before.map alone ++ alone p :: after.map alone := by
      simp [hsplit]
    rw [hmap] at hids hok ⊢
    apply at?_effects_of_last hids hok (names_alone.mpr ht)
    intro a ha
    obtain ⟨q, hq, rfl⟩ := List.mem_map.mp ha
    exact fun hn => hafter q hq (names_alone.mp hn)

end Alone

/-! ## Plans that come to the same -/

/-- When nothing of `as` fails, nothing of `bs` fails, and both leave the same. -/
def Matches (as bs : List Action) : Prop :=
  ∀ σ, failures σ as = 0 → failures σ bs = 0 ∧ effects σ bs = effects σ as

section Matches

variable {as bs cs ds : List Action}

theorem Matches.refl (as : List Action) : Matches as as := fun _ h => ⟨h, rfl⟩

theorem Matches.trans (h : Matches as bs) (h' : Matches bs cs) : Matches as cs := by
  intro σ hok
  obtain ⟨hb, heff⟩ := h σ hok
  obtain ⟨hc, heff'⟩ := h' σ hb
  exact ⟨hc, heff'.trans heff⟩

theorem Matches.append (h : Matches as bs) (h' : Matches cs ds) :
    Matches (as ++ cs) (bs ++ ds) := by
  intro σ hok
  rw [failures_append] at hok
  obtain ⟨hb, heff⟩ := h σ (by omega)
  obtain ⟨hd, heff'⟩ := h' (effects σ as) (by omega)
  constructor
  · rw [failures_append, heff]
    omega
  · rw [effects_append, effects_append, heff, heff']

theorem matches_of_skip {a : Action} (ha : ∀ σ, a.effect σ = σ) (h : Matches as bs) :
    Matches (a :: as) bs := by
  intro σ hok
  rw [effects_cons, ha]
  apply h
  have hrest := (verdict_of_failures_eq_zero hok).2
  rwa [ha] at hrest

/-! Strict inserts of one document each can be made in any order. -/

theorem matches_swap (s s' c c' : String) (d d' : Document) :
    Matches [.insertOne s c d, .insertOne s' c' d'] [.insertOne s' c' d', .insertOne s c d] := by
  intro σ hok
  obtain ⟨hfirst, hrest⟩ := verdict_of_failures_eq_zero hok
  obtain ⟨k, hk, hfree⟩ := verdict_insertOne.mp hfirst
  rw [effect_insertOne hk hfree] at hrest
  obtain ⟨k', hk', hfree'⟩ := verdict_insertOne.mp (verdict_of_failures_eq_zero hrest).1
  have hne : (s', k') ≠ (s, k) := by
    rintro heq
    obtain ⟨rfl, rfl⟩ := Prod.mk.inj heq
    simp at hfree'
  have hput : ∀ {store store' j j' : String} {e : Document}, (store', j') ≠ (store, j) →
      Contents.at? (Function.update σ store ((σ store).put j e)) (store', j') =
        σ.at? (store', j') := by
    intro store store' j j' e h
    by_cases hs : store' = store
    · subst hs
      have hj : j' ≠ j := fun heq => h (by rw [heq])
      simp [Contents.at?, TextMap.get?_insert_of_ne _ _ hj]
    · exact Contents.at?_update_of_ne σ _ hs
  have hfirst' : σ.at? (s', k') = none := (hput hne).symm.trans hfree'
  have hsecond' := (hput (e := d') hne.symm).trans hfree
  have heffect : effects σ [.insertOne s c d, .insertOne s' c' d'] =
      Function.update (Function.update σ s ((σ s).put k d)) s'
        ((Function.update σ s ((σ s).put k d) s').put k' d') := by
    simp only [effects_cons, effects_nil, effect_insertOne hk hfree, effect_insertOne hk' hfree']
  have heffect' : effects σ [.insertOne s' c' d', .insertOne s c d] =
      Function.update (Function.update σ s' ((σ s').put k' d')) s
        ((Function.update σ s' ((σ s').put k' d') s).put k d) := by
    simp only [effects_cons, effects_nil, effect_insertOne hk' hfirst',
      effect_insertOne hk hsecond']
  constructor
  · have hv := verdict_insertOne (c := c').mpr ⟨k', hk', hfirst'⟩
    have hv' := verdict_insertOne (c := c).mpr ⟨k, hk, hsecond'⟩
    simp only [failures, hv, effect_insertOne hk' hfirst', hv']
  · rw [heffect, heffect']
    by_cases hs : s' = s
    · subst hs
      have hj : k ≠ k' := fun heq => hne (by rw [heq])
      rw [Function.update_self, Function.update_self, Function.update_idem, Function.update_idem,
        Collection.put_comm hj]
    · rw [Function.update_of_ne hs, Function.update_of_ne (Ne.symm hs), Function.update_comm hs]

def InsertsOne (a : Action) : Prop := ∃ s c d, a = .insertOne s c d

theorem matches_of_perm (h : as.Perm bs) (hone : ∀ a ∈ as, InsertsOne a) : Matches as bs := by
  induction h with
  | nil => exact .refl []
  | cons a _ ih =>
    exact (Matches.refl [a]).append (ih fun b hb => hone b (List.mem_cons_of_mem _ hb))
  | swap a b rest =>
    obtain ⟨s, c, d, rfl⟩ := hone b (by simp)
    obtain ⟨s', c', d', rfl⟩ := hone a (by simp)
    exact (matches_swap s s' c c' d d').append (.refl rest)
  | trans h _ ih ih' => exact (ih hone).trans (ih' fun b hb => hone b (h.mem_iff.mpr hb))

end Matches

/-! ## Waiting documents -/

def Group.singles (g : Group) : List Action := g.documents.map (.insertOne g.store g.collection)

def Waiting.singles (waiting : Waiting) : List Action := waiting.flatMap Group.singles

section Waiting

variable {waiting : Waiting} {intents : List (Binding Object × Intent Object)}

theorem matches_group (g : Group) : Matches [.insertAll g] g.singles := by
  obtain ⟨store, collection, ds⟩ := g
  induction ds with
  | nil =>
    intro σ _
    simp [Group.singles, effects, failures, Action.effect, Collection.insertAll]
  | cons d ds ih =>
    have hfirst : Matches [.insertAll ⟨store, collection, d :: ds⟩]
        ([.insertOne store collection d] ++ [.insertAll ⟨store, collection, ds⟩]) := by
      intro σ hok
      have hall : ((σ store).insertAll (d :: ds)).2 = .ok () := (verdict_of_failures_eq_zero hok).1
      cases hd : (σ store).insert d with
      | error e =>
        simp [Collection.insertAll, hd] at hall
      | ok c =>
        simp only [Collection.insertAll, hd] at hall
        simp [failures, effects, Action.insertOne, Action.verdict, Action.effect,
          Collection.insertAll, hd, hall]
    exact hfirst.trans ((Matches.refl _).append ih)

theorem matches_waiting (waiting : Waiting) :
    Matches (waiting.map .insertAll) waiting.singles := by
  induction waiting with
  | nil => exact .refl []
  | cons g waiting ih => exact (matches_group g).append ih

theorem insertsOne_of_mem_singles {a : Action} (ha : a ∈ waiting.singles) : InsertsOne a := by
  obtain ⟨g, -, ha⟩ := List.mem_flatMap.mp ha
  obtain ⟨d, -, rfl⟩ := List.mem_map.mp ha
  exact ⟨g.store, g.collection, d, rfl⟩

theorem singles_add_perm {store collection : String}
    (hstore : ∀ g ∈ waiting, g.collection = collection → g.store = store) (d : Document) :
    (waiting.add store collection d).singles.Perm
      (waiting.singles ++ [.insertOne store collection d]) := by
  induction waiting with
  | nil => exact .refl _
  | cons g rest ih =>
    unfold Waiting.add
    split
    · rename_i hc
      obtain rfl := hstore g List.mem_cons_self hc
      subst hc
      simp only [Waiting.singles, List.flatMap_cons, Group.singles, List.map_append,
        List.map_cons, List.map_nil, List.append_assoc]
      exact List.perm_append_comm.append_left _
    · simp only [Waiting.singles, List.flatMap_cons, List.append_assoc]
      exact (ih fun h hh => hstore h (List.mem_cons_of_mem _ hh)).append_left _

def Waiting.Kept (storeOf : String → String) (waiting : Waiting) : Prop :=
  ∀ g ∈ waiting, g.store = storeOf g.collection

theorem Waiting.kept_nil (storeOf : String → String) : Waiting.Kept storeOf [] := by
  intro g hg
  cases hg

theorem Waiting.Kept.add {storeOf : String → String} {store collection : String}
    (h : waiting.Kept storeOf) (hs : store = storeOf collection) (d : Document) :
    (waiting.add store collection d).Kept storeOf := by
  induction waiting with
  | nil =>
    intro g hg
    obtain rfl := List.mem_singleton.mp hg
    exact hs
  | cons g rest ih =>
    have hrest : Waiting.Kept storeOf rest := fun x hx => h x (List.mem_cons_of_mem _ hx)
    unfold Waiting.add
    split
    · intro x hx
      rcases List.mem_cons.mp hx with rfl | hx
      · exact h g List.mem_cons_self
      · exact hrest x hx
    · intro x hx
      rcases List.mem_cons.mp hx with rfl | hx
      · exact h x List.mem_cons_self
      · exact ih hrest x hx

theorem applied_cons (p : Binding Object × Intent Object)
    (intents : List (Binding Object × Intent Object)) :
    applied (p :: intents) = if passedOver p then applied intents else p :: applied intents := by
  cases h : passedOver p <;> simp [applied, h]

/-- A plan comes to the documents that wait, one by one, and then the intents, one by one. -/
theorem plan_matches {storeOf : String → String} (hkept : waiting.Kept storeOf)
    (hstores : ∀ p ∈ intents, p.1.store = storeOf p.1.collection) :
    Matches (plan waiting intents) (waiting.singles ++ (applied intents).map alone) := by
  induction intents generalizing waiting with
  | nil => simpa [plan, applied] using matches_waiting waiting
  | cons p rest ih =>
    obtain ⟨b, i⟩ := p
    have hrest : ∀ p ∈ rest, p.1.store = storeOf p.1.collection :=
      fun p hp => hstores p (List.mem_cons_of_mem _ hp)
    have hflush : ∀ a, Matches (waiting.map .insertAll ++ a :: plan [] rest)
        (waiting.singles ++ a :: (applied rest).map alone) := by
      intro a
      exact (matches_waiting waiting).append
        ((Matches.refl [a]).append (ih (Waiting.kept_nil storeOf) hrest))
    rw [applied_cons]
    unfold plan
    by_cases hecho : i.isEcho = true
    · simp only [hecho, passedOver, Bool.true_or, if_true]
      exact matches_of_skip (fun _ => rfl) (ih hkept hrest)
    · simp only [hecho, passedOver, Bool.false_or, Bool.false_eq_true, if_false]
      cases hkind : i.kind with
      | insert =>
        have hb := hstores (b, i) List.mem_cons_self
        cases hd : b.document i.object with
        | error e =>
          intro σ hok
          cases (verdict_of_failures_eq_zero hok).1
        | ok d =>
          have halone : alone (b, i) = .insertOne b.store b.collection d := by
            simp [alone, hkind, hd]
          -- the document waits behind all others, and could as well be inserted at once
          have hmove : Matches (waiting.add b.store b.collection d).singles
              (waiting.singles ++ [.insertOne b.store b.collection d]) := by
            apply matches_of_perm
            · exact singles_add_perm (fun g hg hc => by rw [hkept g hg, hc, hb]) d
            · intro a ha
              exact insertsOne_of_mem_singles ha
          have h := (ih (hkept.add hb d) hrest).trans (hmove.append (.refl _))
          simpa [halone] using h
      | update =>
        have halone : alone (b, i) = updateAction b i.object := alone_of_update hkind
        simpa [halone] using hflush (updateAction b i.object)
      | remove =>
        have halone : alone (b, i) = removeAction b i.object := alone_of_remove hkind
        by_cases hkeep : b.type.keepOnRemove = true
        · simp only [hkeep]
          exact matches_of_skip (fun _ => rfl) (ih hkept hrest)
        · simpa [hkeep, halone] using hflush (removeAction b i.object)

theorem exists_plan_cons (waiting : Waiting) (p : Binding Object × Intent Object) :
    ∃ front waiting', ∀ rest, plan waiting (p :: rest) = front ++ plan waiting' rest := by
  obtain ⟨b, i⟩ := p
  by_cases hecho : i.isEcho = true
  · exact ⟨[.skipReloaded], waiting, fun rest => by simp [plan, hecho]⟩
  · cases hkind : i.kind with
    | insert =>
      cases hd : b.document i.object with
      | ok d =>
        exact ⟨[], waiting.add b.store b.collection d, fun rest => by simp [plan, hecho, hkind, hd]⟩
      | error e =>
        exact ⟨[.refuse .insert b.collection [] e], waiting,
          fun rest => by simp [plan, hecho, hkind, hd]⟩
    | update =>
      exact ⟨waiting.map .insertAll ++ [updateAction b i.object], [],
        fun rest => by simp [plan, hecho, hkind]⟩
    | remove =>
      by_cases hkeep : b.type.keepOnRemove = true
      · exact ⟨[.skipKept], waiting, fun rest => by simp [plan, hecho, hkind, hkeep]⟩
      · exact ⟨waiting.map .insertAll ++ [removeAction b i.object], [],
          fun rest => by simp [plan, hecho, hkind, hkeep]⟩

theorem exists_plan_cons_of_passedOver {p : Binding Object × Intent Object}
    (h : passedOver p = true) : ∃ a, (a = .skipReloaded ∨ a = .skipKept) ∧
      ∀ waiting rest, plan waiting (p :: rest) = a :: plan waiting rest := by
  obtain ⟨b, i⟩ := p
  by_cases hecho : i.isEcho = true
  · exact ⟨.skipReloaded, Or.inl rfl, fun waiting rest => by simp [plan, hecho]⟩
  · obtain ⟨hkind, hkeep⟩ : i.kind = .remove ∧ b.type.keepOnRemove = true := by
      simpa [passedOver, hecho] using h
    exact ⟨.skipKept, Or.inr rfl, fun waiting rest => by simp [plan, hecho, hkind, hkeep]⟩

theorem mem_plan_applied {a : Action} (ha : a ∈ plan waiting intents) :
    a = .skipReloaded ∨ a = .skipKept ∨ a ∈ plan waiting (applied intents) := by
  induction intents generalizing waiting with
  | nil => exact Or.inr (Or.inr ha)
  | cons p rest ih =>
    rw [applied_cons]
    by_cases hpass : passedOver p = true
    · obtain ⟨skip, hskip, hplan⟩ := exists_plan_cons_of_passedOver hpass
      rw [hplan] at ha
      simp only [hpass, if_true]
      rcases List.mem_cons.mp ha with rfl | ha
      · rcases hskip with rfl | rfl
        · exact Or.inl rfl
        · exact Or.inr (Or.inl rfl)
      · exact ih ha
    · obtain ⟨front, waiting', hplan⟩ := exists_plan_cons waiting p
      rw [hplan] at ha
      simp only [hpass, Bool.false_eq_true, if_false]
      rw [hplan]
      rcases List.mem_append.mp ha with ha | ha
      · exact Or.inr (Or.inr (List.mem_append_left _ ha))
      · rcases ih ha with h | h | h
        · exact Or.inl h
        · exact Or.inr (Or.inl h)
        · exact Or.inr (Or.inr (List.mem_append_right _ h))

theorem keyed_plan
    (hdocs : ∀ p ∈ applied intents, ∃ d k, p.1.document p.2.object = .ok d ∧ d.key? = some k) :
    ∀ a ∈ plan [] intents, a.Keyed := by
  intro a ha
  rcases mem_plan_applied ha with rfl | rfl | ha
  · trivial
  · trivial
  · exact (arises_of_mem_plan ha).keyed hdocs

end Waiting

/-! ## Whole batches -/

/-- A batch of which nothing fails comes to its intents, applied one at a time. -/
theorem batch_comes_to_one_by_one {settings : Settings} {r built : Replica Object}
    (hbuilt : Replica.ofBindings settings r.bindings = .ok built) {batch : List (Intent Object)}
    {w : World} (hw : w.InMemory) (hdocs : Writable r.bindings batch) {notices : List Notice}
    {report : Report} (hok : ((r.synchronize batch).run w).2 = (notices, .ok report))
    (hnone : report.failedOperations = 0) :
    ∃ intents, bound r.bindings batch = .ok intents ∧
      ((oneByOne (applied intents)).run w).2 = .ok () ∧
      ((oneByOne (applied intents)).run w).1.contents =
        ((r.synchronize batch).run w).1.contents ∧
      LastWins (applied intents) w.contents ((r.synchronize batch).run w).1.contents := by
  cases hb : bound r.bindings batch with
  | error e =>
    simp only [Replica.synchronize, synchronize, hb, Program.run_done, Prod.mk.injEq] at hok
    cases hok.2
  | ok intents =>
    have hplan : r.synchronize batch = carryOut r.triage {} (plan [] intents) := by
      simp only [Replica.synchronize, synchronize, hb]
    have hmem := mem_bound hb
    have hwrite : ∀ p ∈ applied intents, ∃ d k, p.1.document p.2.object = .ok d ∧
        d.key? = some k := by
      intro p hp
      obtain ⟨hp, hpass⟩ := List.mem_filter.mp hp
      obtain ⟨hi, hfind⟩ := hmem p hp
      exact hdocs p.2 hi p.1 hfind (by simpa using hpass)
    rw [hplan] at hok ⊢
    obtain ⟨hcontents, hfail⟩ := effects_of_no_failure hw (keyed_plan hwrite) hok hnone
    obtain ⟨storeOf, hstoreOf⟩ := Replica.exists_storeOf hbuilt
    have hstores : ∀ p ∈ intents, p.1.store = storeOf p.1.collection := by
      intro p hp
      exact hstoreOf p.1 (Binding.mem_of_find? (hmem p hp).2)
    obtain ⟨hone, heffects⟩ := plan_matches (Waiting.kept_nil storeOf) hstores w.contents hfail
    obtain ⟨hrun, hafter⟩ := run_oneByOne hw hwrite hone
    refine ⟨intents, rfl, hrun, ?_, ?_⟩
    · rw [hafter, hcontents]
      exact heffects
    · rw [hcontents, ← heffects]
      exact lastWins_effects hwrite hone

/-! Fruits and their growers, in two collections. -/

def growers : Binding Value :=
  ⟨{ fruitType with name := "Grower", collection := "growers" }, "growers", "growers",
    .ofCodec .value "name"⟩

def orchard : Replica Value := { fruitReplica with bindings := [fruits, growers] }

def harvest : List (Intent Value) :=
  [fruitIntent .insert "apple", { fruitIntent .insert "Ann" with typeName := "Grower" },
    fruitIntent .insert "pear", fruitIntent .update "plum", fruitIntent .remove "apple"]

theorem writable_harvest : Writable orchard.bindings harvest := by
  intro i hi b hb _
  simp only [harvest, List.mem_cons, List.not_mem_nil, or_false] at hi
  rcases hi with rfl | rfl | rfl | rfl | rfl <;>
    · obtain rfl := Option.some.inj hb
      exact ⟨_, _, rfl, rfl⟩

theorem harvest_comes_to_one_by_one :
    let w : World := ⟨.empty⟩
    w.InMemory ∧ Writable orchard.bindings harvest ∧
      ((orchard.synchronize harvest).run w).2 =
        ([], .ok { inserted := 3, insertBatches := 2, updated := 1, removed := 1 }) ∧
      ∃ intents, bound orchard.bindings harvest = .ok intents ∧
        ((oneByOne (applied intents)).run w).1.contents =
          ((orchard.synchronize harvest).run w).1.contents := by
  intro w
  have hbuilt : Replica.ofBindings { sync := { transientPatterns := [] } } orchard.bindings =
      .ok { orchard with
        settings := { sync := { transientPatterns := [] } }
        registry := ⟨[fruitType, growers.type]⟩ } := rfl
  have hok : ((orchard.synchronize harvest).run w).2 =
      ([], .ok { inserted := 3, insertBatches := 2, updated := 1, removed := 1 }) := rfl
  obtain ⟨intents, hbound, -, hsame, -⟩ :=
    batch_comes_to_one_by_one hbuilt inMemory_empty writable_harvest hok rfl
  exact ⟨inMemory_empty, writable_harvest, hok, intents, hbound, hsame⟩

end Sync

end StoredObjects
