import Mathlib.Data.List.DropRight
import Mathlib.Data.List.Nodup
import StoredObjects.Proofs.Sync.Coalescing

/-! # What is flushed with an insert

Updates and removals cut a batch into stretches. The strict inserts of a stretch are made at its
end, those of one collection by one call, in the order in which they came.
-/

namespace StoredObjects

namespace Sync

variable {Object : Type}

def flushes (p : Binding Object × Intent Object) : Bool :=
  !passedOver p && p.2.kind != .insert

def queued (collection : String) (intents : List (Binding Object × Intent Object)) :
    List Document :=
  intents.filterMap fun p =>
    if p.1.collection = collection ∧ p.2.kind = .insert ∧ p.2.isEcho = false then
      (p.1.document p.2.object).toOption
    else none

def enqueue (waiting : Waiting) (p : Binding Object × Intent Object) : Waiting :=
  if p.2.kind = .insert ∧ p.2.isEcho = false then
    match p.1.document p.2.object with
    | .ok d => waiting.add p.1.store p.1.collection d
    | .error _ => waiting
  else waiting

/-- What is done at once about an intent that does not flush. -/
def quiet? : Binding Object × Intent Object → Option Action
  | (b, i) =>
    if i.isEcho then some .skipReloaded
    else
      match i.kind with
      | .insert =>
        match b.document i.object with
        | .ok _ => none
        | .error e => some (.refuse .insert b.collection [] e)
      | .update => none
      | .remove => some .skipKept

def Action.Avoids (store : String) : Action → Prop
  | skipReloaded | skipKept | refuse .. => True
  | insertAll g => g.store ≠ store
  | update s .. | remove s .. => s ≠ store

def Action.Idle : Action → Prop
  | skipReloaded | skipKept | refuse .. => True
  | _ => False

theorem Action.Idle.avoids {a : Action} (h : a.Idle) (store : String) : a.Avoids store := by
  cases a with
  | insertAll g => exact h.elim
  | update => exact h.elim
  | remove => exact h.elim
  | _ => trivial

section Plan

variable {waiting : Waiting} {p : Binding Object × Intent Object}
  {intents rest : List (Binding Object × Intent Object)}

/-- An intent that is not passed over waits, is refused, or is carried out behind what waits. -/
theorem plan_cons_cases (waiting : Waiting) (hpass : passedOver p = false)
    (rest : List (Binding Object × Intent Object)) :
    (∃ d, p.2.kind = .insert ∧ p.1.document p.2.object = .ok d ∧
        plan waiting (p :: rest) = plan (waiting.add p.1.store p.1.collection d) rest) ∨
      (∃ e, p.2.kind = .insert ∧ p.1.document p.2.object = .error e ∧
        plan waiting (p :: rest) = alone p :: plan waiting rest) ∨
      p.2.kind ≠ .insert ∧
        plan waiting (p :: rest) = waiting.map .insertAll ++ alone p :: plan [] rest := by
  obtain ⟨b, i⟩ := p
  obtain ⟨hecho, hkeep⟩ : i.isEcho = false ∧
      (i.kind = .remove → b.type.keepOnRemove = false) := by
    simpa [passedOver] using hpass
  cases hk : i.kind with
  | insert =>
    cases hd : b.document i.object with
    | ok d => exact Or.inl ⟨d, rfl, rfl, by simp [plan, hecho, hk, hd]⟩
    | error e => exact Or.inr (Or.inl ⟨e, rfl, rfl, by simp [plan, alone, hecho, hk, hd]⟩)
  | update => exact Or.inr (Or.inr ⟨by simp, by simp [plan, alone_of_update hk, hecho, hk]⟩)
  | remove =>
    exact Or.inr (Or.inr ⟨by simp, by simp [plan, alone_of_remove hk, hecho, hk, hkeep hk]⟩)

theorem plan_cons_of_flushes (hp : flushes p = true) (waiting : Waiting)
    (rest : List (Binding Object × Intent Object)) :
    plan waiting (p :: rest) = waiting.map .insertAll ++ alone p :: plan [] rest := by
  obtain ⟨hpass, hkind⟩ : passedOver p = false ∧ p.2.kind ≠ .insert := by
    simpa [flushes] using hp
  rcases plan_cons_cases waiting hpass rest with ⟨d, hk, -⟩ | ⟨e, hk, -⟩ | ⟨-, hplan⟩
  · exact absurd hk hkind
  · exact absurd hk hkind
  · exact hplan

theorem plan_cons_of_not_flushes (hp : flushes p = false) (waiting : Waiting)
    (rest : List (Binding Object × Intent Object)) :
    plan waiting (p :: rest) = (quiet? p).toList ++ plan (enqueue waiting p) rest := by
  obtain ⟨b, i⟩ := p
  by_cases hecho : i.isEcho = true
  · simp [plan, quiet?, enqueue, hecho]
  · cases hk : i.kind with
    | insert =>
      cases hd : b.document i.object <;> simp [plan, quiet?, enqueue, hecho, hk, hd]
    | update => simp [flushes, passedOver, hecho, hk] at hp
    | remove =>
      have hkeep : b.type.keepOnRemove = true := by simpa [flushes, passedOver, hecho, hk] using hp
      simp [plan, quiet?, enqueue, hecho, hk, hkeep]

theorem plan_append_of_flushes (hp : flushes p = true) :
    plan waiting (intents ++ [p] ++ rest) = plan waiting (intents ++ [p]) ++ plan [] rest := by
  induction intents generalizing waiting with
  | nil => simp [plan_cons_of_flushes hp, plan]
  | cons q intents ih =>
    obtain ⟨front, waiting', hq⟩ := exists_plan_cons waiting q
    simp only [List.cons_append, hq, List.append_assoc] at ih ⊢
    rw [ih]

/-- A batch is planned afresh behind its last intent that flushes. -/
theorem plan_rdropWhile_append (intents rest : List (Binding Object × Intent Object)) :
    plan [] (intents.rdropWhile (fun p => !flushes p) ++ rest) =
      plan [] (intents.rdropWhile fun p => !flushes p) ++ plan [] rest := by
  by_cases hnil : intents.rdropWhile (fun p => !flushes p) = []
  · simp [hnil, plan]
  · have hlast := List.rdropWhile_last_not _ _ hnil
    have hflush : flushes ((intents.rdropWhile fun p => !flushes p).getLast hnil) = true := by
      simpa using hlast
    rw [← List.dropLast_append_getLast hnil]
    exact plan_append_of_flushes hflush

theorem plan_of_head_flushes (h : ∀ p ∈ rest.head?, flushes p = true) :
    plan waiting rest = waiting.map .insertAll ++ plan [] rest := by
  cases rest with
  | nil => simp [plan]
  | cons p rest => simp [plan_cons_of_flushes (h p rfl)]

theorem quiet?_cases {a : Action} (ha : quiet? p = some a) :
    a = .skipReloaded ∨ a = .skipKept ∨
      passedOver p = false ∧ a = alone p ∧ ∃ e, a = .refuse .insert p.1.collection [] e := by
  obtain ⟨b, i⟩ := p
  by_cases hecho : i.isEcho = true
  · exact Or.inl (by simpa [quiet?, hecho] using ha.symm)
  · cases hk : i.kind with
    | insert =>
      cases hd : b.document i.object with
      | ok d => simp [quiet?, hecho, hk, hd] at ha
      | error e =>
        obtain rfl : Action.refuse .insert b.collection [] e = a := by
          simpa [quiet?, hecho, hk, hd] using ha
        exact Or.inr (Or.inr ⟨by simp [passedOver, hecho, hk], by simp [alone, hk, hd], e, rfl⟩)
    | update => simp [quiet?, hecho, hk] at ha
    | remove => exact Or.inr (Or.inl (by simpa [quiet?, hecho, hk] using ha.symm))

theorem idle_of_quiet? {a : Action} (ha : quiet? p = some a) : a.Idle := by
  rcases quiet?_cases ha with rfl | rfl | ⟨-, -, e, rfl⟩ <;> trivial

theorem exists_plan_quiet (waiting : Waiting) (hquiet : ∀ p ∈ intents, flushes p = false) :
    ∃ idle, (∀ a ∈ idle, a.Idle) ∧
      ∀ rest, plan waiting (intents ++ rest) =
        idle ++ plan (intents.foldl enqueue waiting) rest := by
  induction intents generalizing waiting with
  | nil => exact ⟨[], by simp, fun rest => rfl⟩
  | cons p intents ih =>
    obtain ⟨idle, hidle, hplan⟩ :=
      ih (enqueue waiting p) fun q hq => hquiet q (List.mem_cons_of_mem _ hq)
    refine ⟨(quiet? p).toList ++ idle, fun a ha => ?_, fun rest => ?_⟩
    · rcases List.mem_append.mp ha with ha | ha
      · exact idle_of_quiet? (Option.mem_toList.mp ha)
      · exact hidle a ha
    · rw [List.cons_append, plan_cons_of_not_flushes (hquiet p List.mem_cons_self), hplan,
        List.foldl_cons, List.append_assoc]

end Plan

/-! ## The groups that wait -/

def Waiting.documents (collection : String) (waiting : Waiting) : List Document :=
  ((waiting.find? fun g => g.collection = collection).map Group.documents).getD []

/-- No two groups are for one collection, and every group is for the collection of a binding. -/
structure Waiting.Grouped (bindings : List (Binding Object)) (waiting : Waiting) : Prop where
  nodup : (waiting.map Group.collection).Nodup
  bound : ∀ g ∈ waiting, ∃ b ∈ bindings, b.store = g.store ∧ b.collection = g.collection

section Groups

variable {bindings : List (Binding Object)} {waiting : Waiting} {b : Binding Object}
  {intents : List (Binding Object × Intent Object)}

theorem documents_cons (g : Group) (waiting : Waiting) (collection : String) :
    Waiting.documents collection (g :: waiting) =
      if g.collection = collection then g.documents else waiting.documents collection := by
  by_cases h : g.collection = collection <;> simp [Waiting.documents, h]

theorem documents_add (waiting : Waiting) (store c collection : String) (d : Document) :
    (waiting.add store c d).documents collection =
      waiting.documents collection ++ if c = collection then [d] else [] := by
  induction waiting with
  | nil => by_cases hc : c = collection <;> simp [Waiting.add, Waiting.documents, hc]
  | cons g rest ih =>
    unfold Waiting.add
    split
    · rename_i hg
      rw [documents_cons, documents_cons]
      by_cases hc : c = collection <;> simp [hg, hc]
    · rename_i hg
      rw [documents_cons, documents_cons, ih]
      by_cases hc : g.collection = collection
      · have hne : c ≠ collection := fun h => hg (hc.trans h.symm)
        simp [hc, hne]
      · simp [hc]

theorem documents_foldl (intents : List (Binding Object × Intent Object)) (waiting : Waiting)
    (collection : String) :
    (intents.foldl enqueue waiting).documents collection =
      waiting.documents collection ++ queued collection intents := by
  induction intents generalizing waiting with
  | nil => simp [queued]
  | cons p intents ih =>
    rw [List.foldl_cons, ih]
    unfold enqueue
    by_cases hp : p.2.kind = .insert ∧ p.2.isEcho = false
    · cases hd : p.1.document p.2.object with
      | ok d =>
        by_cases hc : p.1.collection = collection <;>
          simp [hp, hd, hc, documents_add, queued, Except.toOption]
      | error e =>
        by_cases hc : p.1.collection = collection <;> simp [hp, hd, hc, queued, Except.toOption]
    · have hq : ¬ (p.1.collection = collection ∧ p.2.kind = .insert ∧ p.2.isEcho = false) :=
        fun h => hp h.2
      simp only [if_neg hp, queued, List.filterMap_cons, if_neg hq]

theorem collections_add (waiting : Waiting) (store c : String) (d : Document) :
    (waiting.add store c d).map Group.collection =
      if c ∈ waiting.map Group.collection then waiting.map Group.collection
      else waiting.map Group.collection ++ [c] := by
  induction waiting with
  | nil => rfl
  | cons g rest ih =>
    unfold Waiting.add
    by_cases hg : g.collection = c
    · simp [hg]
    · have hne : c ≠ g.collection := fun h => hg h.symm
      simp only [hg, if_false, List.map_cons, ih, List.mem_cons, hne, false_or]
      split <;> rfl

theorem Waiting.Grouped.add (h : waiting.Grouped bindings) (hb : b ∈ bindings) (d : Document) :
    (waiting.add b.store b.collection d).Grouped bindings := by
  constructor
  · rw [collections_add]
    split
    · exact h.nodup
    · rename_i hnew
      rw [List.nodup_append]
      refine ⟨h.nodup, List.nodup_singleton _, fun c hc c' hc' => ?_⟩
      obtain rfl := List.mem_singleton.mp hc'
      exact fun heq => hnew (heq ▸ hc)
  · have hbound := h.bound
    clear h
    induction waiting with
    | nil =>
      intro g hg
      obtain rfl := List.mem_singleton.mp hg
      exact ⟨b, hb, rfl, rfl⟩
    | cons g rest ih =>
      have hrest := ih fun x hx => hbound x (List.mem_cons_of_mem _ hx)
      unfold Waiting.add
      split
      · intro x hx
        rcases List.mem_cons.mp hx with rfl | hx
        · exact hbound g List.mem_cons_self
        · exact hbound x (List.mem_cons_of_mem _ hx)
      · intro x hx
        rcases List.mem_cons.mp hx with rfl | hx
        · exact hbound x List.mem_cons_self
        · exact hrest x hx

theorem grouped_foldl (hb : ∀ p ∈ intents, p.1 ∈ bindings) (h : waiting.Grouped bindings) :
    (intents.foldl enqueue waiting).Grouped bindings := by
  induction intents generalizing waiting with
  | nil => exact h
  | cons p intents ih =>
    apply ih fun q hq => hb q (List.mem_cons_of_mem _ hq)
    unfold enqueue
    split
    · split
      · exact h.add (hb p List.mem_cons_self) _
      · exact h
    · exact h

theorem Waiting.Grouped.exists_group (h : waiting.Grouped bindings) {collection : String}
    (hne : waiting.documents collection ≠ []) :
    ∃ front g back, waiting = front ++ g :: back ∧ g.collection = collection ∧
      g.documents = waiting.documents collection ∧
      ∀ x ∈ front ++ back, x.collection ≠ collection := by
  obtain ⟨g, hfind⟩ : ∃ g, waiting.find? (fun g => g.collection = collection) = some g := by
    cases hf : waiting.find? fun g => g.collection = collection with
    | none => simp [Waiting.documents, hf] at hne
    | some g => exact ⟨g, rfl⟩
  have hg : g.collection = collection := by simpa using List.find?_some hfind
  obtain ⟨front, back, rfl⟩ := List.append_of_mem (List.mem_of_find?_eq_some hfind)
  refine ⟨front, g, back, rfl, hg, by simp [Waiting.documents, hfind], fun x hx heq => ?_⟩
  have hnodup := h.nodup
  rw [List.map_append, List.map_cons, List.nodup_middle, List.nodup_cons, ← List.map_append]
    at hnodup
  exact hnodup.1 (List.mem_map.mpr ⟨x, hx, heq.trans hg.symm⟩)

theorem exists_names_of_mem_waiting {place : Place} {a : Action}
    (ha : a ∈ waiting.map Action.insertAll) (hn : a.Names place) :
    ∃ x ∈ waiting.singles, x.Names place := by
  obtain ⟨g, hg, rfl⟩ := List.mem_map.mp ha
  obtain ⟨hstore, d, hd, hk⟩ := hn
  refine ⟨.insertOne g.store g.collection d, ?_, hstore, d, List.mem_singleton_self d, hk⟩
  exact List.mem_flatMap.mpr ⟨g, hg, List.mem_map.mpr ⟨d, hd, rfl⟩⟩

/-- A plan names what the documents that wait and the intents name, one by one. -/
theorem exists_names_of_mem_plan {storeOf : String → String} {place : Place} {a : Action}
    (hkept : waiting.Kept storeOf) (hstores : ∀ p ∈ intents, p.1.store = storeOf p.1.collection)
    (ha : a ∈ plan waiting intents) (hn : a.Names place) :
    ∃ x ∈ waiting.singles ++ intents.map alone, x.Names place := by
  induction intents generalizing waiting with
  | nil =>
    obtain ⟨x, hx, hn⟩ := exists_names_of_mem_waiting ha hn
    exact ⟨x, List.mem_append_left _ hx, hn⟩
  | cons p rest ih =>
    have hrest : ∀ p ∈ rest, p.1.store = storeOf p.1.collection :=
      fun p hp => hstores p (List.mem_cons_of_mem _ hp)
    have hlater : (∃ x ∈ waiting.singles ++ rest.map alone, x.Names place) →
        ∃ x ∈ waiting.singles ++ (p :: rest).map alone, x.Names place := by
      rintro ⟨x, hx, hn⟩
      refine ⟨x, ?_, hn⟩
      rcases List.mem_append.mp hx with hx | hx
      · exact List.mem_append_left _ hx
      · exact List.mem_append_right _ (List.mem_cons_of_mem _ hx)
    have hflush : a ∈ waiting.map .insertAll ++ alone p :: plan [] rest →
        ∃ x ∈ waiting.singles ++ (p :: rest).map alone, x.Names place := by
      intro ha
      rcases List.mem_append.mp ha with ha | ha
      · obtain ⟨x, hx, hn⟩ := exists_names_of_mem_waiting ha hn
        exact ⟨x, List.mem_append_left _ hx, hn⟩
      · rcases List.mem_cons.mp ha with rfl | ha
        · exact ⟨alone p, by simp, hn⟩
        · obtain ⟨x, hx, hn⟩ := ih (Waiting.kept_nil storeOf) hrest ha
          exact hlater ⟨x, List.mem_append_right _ hx, hn⟩
    by_cases hpass : passedOver p = true
    · obtain ⟨skip, hskip, hplan⟩ := exists_plan_cons_of_passedOver hpass
      rw [hplan] at ha
      rcases List.mem_cons.mp ha with rfl | ha
      · rcases hskip with rfl | rfl <;> exact hn.elim
      · exact hlater (ih hkept hrest ha)
    · obtain ⟨b, i⟩ := p
      rcases plan_cons_cases waiting (by simpa using hpass) rest with
        ⟨d, hk, hd, hplan⟩ | ⟨e, -, -, hplan⟩ | ⟨-, hplan⟩
      · -- the document waits, as if it were inserted behind all that wait already
        have hb := hstores (b, i) List.mem_cons_self
        have halone : alone (b, i) = .insertOne b.store b.collection d := by
          simp only at hk hd
          simp [alone, hk, hd]
        have hperm : (waiting.add b.store b.collection d).singles.Perm
            (waiting.singles ++ [.insertOne b.store b.collection d]) :=
          singles_add_perm (fun g hg hc => by rw [hkept g hg, hc, hb]) d
        obtain ⟨x, hx, hn⟩ := ih (hkept.add hb d) hrest (hplan ▸ ha)
        refine ⟨x, ?_, hn⟩
        rw [List.map_cons, halone, List.append_cons]
        exact (hperm.append_right _).mem_iff.mp hx
      · rw [hplan] at ha
        rcases List.mem_cons.mp ha with rfl | ha
        · exact ⟨alone (b, i), by simp, hn⟩
        · exact hlater (ih hkept hrest ha)
      · exact hflush (hplan ▸ ha)

theorem touches_of_mem_plan {storeOf : String → String} {place : Place} {a : Action}
    (hstores : ∀ p ∈ intents, p.1.store = storeOf p.1.collection) (ha : a ∈ plan [] intents)
    (hn : a.Names place) : ∃ p ∈ intents, Touches place p := by
  obtain ⟨x, hx, hn⟩ := exists_names_of_mem_plan (Waiting.kept_nil storeOf) hstores ha hn
  obtain ⟨p, hp, rfl⟩ : ∃ p ∈ intents, alone p = x := List.mem_map.mp hx
  exact ⟨p, hp, names_alone.mp hn⟩

end Groups

/-! ## The stretch of an insert -/

/-- Bindings of one collection are one, and bindings of one store have one collection. -/
structure Wired (bindings : List (Binding Object)) : Prop where
  eq_of_collection : ∀ b ∈ bindings, ∀ c ∈ bindings, b.collection = c.collection → b = c
  collection_of_store : ∀ b ∈ bindings, ∀ c ∈ bindings, b.store = c.store →
    b.collection = c.collection

section Untouched

variable {bindings : List (Binding Object)}
  {intents : List (Binding Object × Intent Object)}

theorem not_names_of_untouched {settings : Settings} {built : Replica Object}
    (hbuilt : Replica.ofBindings settings bindings = .ok built)
    (hmem : ∀ p ∈ intents, p.1 ∈ bindings) {place : Place}
    (h : ∀ p ∈ intents, ¬ Touches place p) : ∀ a ∈ plan [] intents, ¬ a.Names place := by
  obtain ⟨storeOf, hstoreOf⟩ := Replica.exists_storeOf hbuilt
  intro a ha hn
  obtain ⟨p, hp, ht⟩ := touches_of_mem_plan (fun p hp => hstoreOf p.1 (hmem p hp)) ha hn
  exact h p hp ht

theorem key?_ne_of_untouched (hwired : Wired bindings) {b : Binding Object} (hb : b ∈ bindings)
    (hmem : ∀ p ∈ intents, p.1 ∈ bindings) {k : String}
    (h : ∀ p ∈ intents, ¬ Touches (b.store, k) p) :
    ∀ e ∈ queued b.collection intents, e.key? ≠ some k := by
  intro e he hk
  obtain ⟨p, hp, hpe⟩ := List.mem_filterMap.mp he
  split at hpe
  · rename_i hqueued
    cases hd : p.1.document p.2.object with
    | error f =>
      rw [hd] at hpe
      cases hpe
    | ok e' =>
      rw [hd] at hpe
      obtain rfl := Option.some.inj hpe
      apply h p hp
      rw [← hwired.eq_of_collection p.1 (hmem p hp) b hb hqueued.1]
      exact ⟨rfl, e', hd, hk⟩
  · cases hpe

end Untouched

section Around

variable {bindings : List (Binding Object)}
  {before after : List (Binding Object × Intent Object)} {b : Binding Object} {i : Intent Object}
  {d : Document}

/-- The intents from the last one in front of `p` that flushes to the next one behind it. -/
def around (before : List (Binding Object × Intent Object)) (p : Binding Object × Intent Object)
    (after : List (Binding Object × Intent Object)) : List (Binding Object × Intent Object) :=
  before.rtakeWhile (fun q => !flushes q) ++ p :: after.takeWhile fun q => !flushes q

theorem eq_append_around (before : List (Binding Object × Intent Object))
    (p : Binding Object × Intent Object) (after : List (Binding Object × Intent Object)) :
    before ++ p :: after = before.rdropWhile (fun q => !flushes q) ++
      (around before p after ++ after.dropWhile fun q => !flushes q) := by
  rw [around, List.append_assoc, List.cons_append, List.takeWhile_append_dropWhile,
    ← List.append_assoc, List.rdropWhile_append_rtakeWhile]

theorem not_flushes_of_mem_around (before after : List (Binding Object × Intent Object))
    {p : Binding Object × Intent Object} (hp : flushes p = false) :
    ∀ q ∈ around before p after, flushes q = false := by
  intro q hq
  rcases List.mem_append.mp hq with hq | hq
  · simpa using List.mem_rtakeWhile_imp hq
  · rcases List.mem_cons.mp hq with rfl | hq
    · exact hp
    · simpa using List.mem_takeWhile_imp hq

theorem exists_plan_around (before after : List (Binding Object × Intent Object))
    {p : Binding Object × Intent Object} (hp : flushes p = false) :
    ∃ idle, (∀ a ∈ idle, a.Idle) ∧ plan [] (before ++ p :: after) =
      plan [] (before.rdropWhile fun q => !flushes q) ++ (idle ++
        (((around before p after).foldl enqueue []).map .insertAll ++
          plan [] (after.dropWhile fun q => !flushes q))) := by
  have hhead : ∀ q ∈ (after.dropWhile fun q => !flushes q).head?, flushes q = true := by
    intro q hq
    have h := List.head?_dropWhile_not (fun q => !flushes q) after
    rw [Option.mem_def.mp hq] at h
    simpa using h
  obtain ⟨idle, hidle, hplan⟩ :=
    exists_plan_quiet [] (not_flushes_of_mem_around before after hp)
  refine ⟨idle, hidle, ?_⟩
  rw [eq_append_around, plan_rdropWhile_append, hplan, plan_of_head_flushes hhead]

/-- Where an insert is carried out: with those in front of it that wait for the same collection, and
with those behind it that come before the next update or removal. -/
theorem exists_group_around (hwired : Wired bindings)
    (hmem : ∀ p ∈ before ++ (b, i) :: after, p.1 ∈ bindings) (hkind : i.kind = .insert)
    (hecho : i.isEcho = false) (hd : b.document i.object = .ok d) :
    ∃ pre g mid, plan [] (before ++ (b, i) :: after) =
        plan [] (before.rdropWhile fun q => !flushes q) ++ (pre ++ ([.insertAll g] ++
          (mid ++ plan [] (after.dropWhile fun q => !flushes q)))) ∧
      (∀ a ∈ pre, a.Avoids b.store) ∧ (∀ a ∈ mid, a.Avoids b.store) ∧ g.store = b.store ∧
      g.documents = queued b.collection (before.rtakeWhile fun q => !flushes q) ++
        d :: queued b.collection (after.takeWhile fun q => !flushes q) := by
  have hb : b ∈ bindings := hmem (b, i) (by simp)
  have hflush : flushes (b, i) = false := by simp [flushes, hkind]
  obtain ⟨idle, hidle, hplan⟩ := exists_plan_around before after hflush
  generalize hgroups : (around before (b, i) after).foldl enqueue [] = groups at hplan
  have hgrouped : groups.Grouped bindings := by
    rw [← hgroups]
    apply grouped_foldl
    · intro p hp
      apply hmem
      rw [eq_append_around]
      exact List.mem_append_right _ (List.mem_append_left _ hp)
    · exact ⟨List.nodup_nil, nofun⟩
  have hqueued : groups.documents b.collection =
      queued b.collection (before.rtakeWhile fun q => !flushes q) ++
        d :: queued b.collection (after.takeWhile fun q => !flushes q) := by
    rw [← hgroups, documents_foldl]
    simp [Waiting.documents, queued, around, hkind, hecho, hd, Except.toOption]
  have hsome : groups.documents b.collection ≠ [] := by simp [hqueued]
  obtain ⟨front, g, back, hg, hgc, hgd, hne⟩ := hgrouped.exists_group hsome
  -- the other groups are for other collections, which are in other stores
  have havoids : ∀ x ∈ front ++ back, (Action.insertAll x).Avoids b.store := by
    intro x hx hstore
    have hxg : x ∈ groups := by
      rw [hg]
      rcases List.mem_append.mp hx with hx | hx <;> simp [hx]
    obtain ⟨c, hc, hcs, hcc⟩ := hgrouped.bound x hxg
    apply hne x hx
    rw [← hcc]
    exact hwired.collection_of_store c hc b hb (hcs.trans hstore)
  obtain ⟨c, hc, hcs, hcc⟩ := hgrouped.bound g (by simp [hg])
  obtain rfl := hwired.eq_of_collection c hc b hb (hcc.trans hgc)
  refine ⟨idle ++ front.map .insertAll, g, back.map .insertAll, ?_, ?_, ?_, hcs.symm,
    hgd.trans hqueued⟩
  · rw [hplan, hg]
    simp
  · intro a ha
    rcases List.mem_append.mp ha with ha | ha
    · exact (hidle a ha).avoids _
    · obtain ⟨x, hx, rfl⟩ := List.mem_map.mp ha
      exact havoids x (List.mem_append_left _ hx)
  · intro a ha
    obtain ⟨x, hx, rfl⟩ := List.mem_map.mp ha
    exact havoids x (List.mem_append_right _ hx)

end Around

end Sync

end StoredObjects
