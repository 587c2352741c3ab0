import StoredObjects.Proofs.ObjectType.Upgrade
import StoredObjects.Proofs.Sync.Effect
import StoredObjects.Replica

/-! # What a batch plans

Every action of a plan comes from one intent, but for the strict inserts, which hold the documents
of several. What an action needs to be carried out follows from what the objects of the intents
have: a removal is planned for an identity only, and documents with identities can be refused for no
other reason than that an identity is taken.
-/

namespace StoredObjects

namespace Sync

variable {Object : Type}

def planned (bindings : List (Binding Object)) (batch : List (Intent Object)) : List Action :=
  match bound bindings batch with
  | .ok intents => plan [] intents
  | .error _ => []

/-- The intents of a batch with the bindings of their types, as far as these are known. -/
def paired (bindings : List (Binding Object)) (batch : List (Intent Object)) :
    List (Binding Object × Intent Object) :=
  batch.filterMap fun i => (Binding.find? bindings i.typeName).map (·, i)

def Convertible (bindings : List (Binding Object)) (batch : List (Intent Object)) : Prop :=
  ∀ i ∈ batch, ∀ b, Binding.find? bindings i.typeName = some b →
    ∃ d k, b.document i.object = .ok d ∧ d.key? = some k

def Source (waiting : Waiting) (intents : List (Binding Object × Intent Object)) (d : Document) :
    Prop :=
  (∃ g ∈ waiting, d ∈ g.documents) ∨ ∃ i ∈ intents, i.1.document i.2.object = .ok d

/-- Where the actions of a plan come from. -/
inductive Arises (waiting : Waiting) (intents : List (Binding Object × Intent Object)) :
    Action → Prop where
  | skipReloaded : Arises waiting intents .skipReloaded
  | skipKept : Arises waiting intents .skipKept
  | refuse {b : Binding Object} {i : Intent Object} {e : Failure} (hi : (b, i) ∈ intents)
      (he : b.document i.object = .error e) :
      Arises waiting intents (.refuse .insert b.collection [] e)
  | insertAll {g : Group} (hg : ∀ d ∈ g.documents, Source waiting intents d) :
      Arises waiting intents (.insertAll g)
  | update {b : Binding Object} {i : Intent Object} (hi : (b, i) ∈ intents) :
      Arises waiting intents (updateAction b i.object)
  | remove {b : Binding Object} {i : Intent Object} (hi : (b, i) ∈ intents) :
      Arises waiting intents (removeAction b i.object)

section Plan

variable {waiting waiting' : Waiting} {intents rest : List (Binding Object × Intent Object)}
  {a : Action}

theorem Arises.mono (h : Arises waiting' rest a)
    (hwait : ∀ d, Source waiting' rest d → Source waiting intents d)
    (hrest : ∀ i ∈ rest, i ∈ intents) : Arises waiting intents a := by
  cases h with
  | skipReloaded => exact .skipReloaded
  | skipKept => exact .skipKept
  | refuse hi he => exact .refuse (hrest _ hi) he
  | insertAll hg => exact .insertAll fun d hd => hwait d (hg d hd)
  | update hi => exact .update (hrest _ hi)
  | remove hi => exact .remove (hrest _ hi)

theorem mem_add {store collection : String} {d e : Document} {g : Group}
    (hg : g ∈ waiting.add store collection d) (he : e ∈ g.documents) :
    e = d ∨ ∃ g' ∈ waiting, e ∈ g'.documents := by
  induction waiting with
  | nil =>
    obtain rfl : g = ⟨store, collection, [d]⟩ := by simpa [Waiting.add] using hg
    exact Or.inl (by simpa using he)
  | cons h rest ih =>
    unfold Waiting.add at hg
    split at hg
    · rcases List.mem_cons.mp hg with rfl | hg
      · rcases List.mem_append.mp he with he | he
        · exact Or.inr ⟨h, List.mem_cons_self, he⟩
        · exact Or.inl (by simpa using he)
      · exact Or.inr ⟨g, List.mem_cons_of_mem _ hg, he⟩
    · rcases List.mem_cons.mp hg with rfl | hg
      · exact Or.inr ⟨g, List.mem_cons_self, he⟩
      · rcases ih hg with rfl | ⟨g', hg', he'⟩
        · exact Or.inl rfl
        · exact Or.inr ⟨g', List.mem_cons_of_mem _ hg', he'⟩

theorem arises_of_mem_plan (ha : a ∈ plan waiting intents) : Arises waiting intents a := by
  have hflush : ∀ {waiting : Waiting} {intents : List (Binding Object × Intent Object)},
      a ∈ waiting.map Action.insertAll → Arises waiting intents a := by
    intro waiting intents ha
    obtain ⟨g, hg, rfl⟩ := List.mem_map.mp ha
    exact .insertAll fun d hd => Or.inl ⟨g, hg, hd⟩
  induction intents generalizing waiting with
  | nil => exact hflush ha
  | cons i rest ih =>
    obtain ⟨b, i⟩ := i
    have hmem : ∀ j ∈ rest, j ∈ (b, i) :: rest := fun j hj => List.mem_cons_of_mem _ hj
    have hlater : ∀ d, Source waiting rest d → Source waiting ((b, i) :: rest) d := by
      rintro d (hd | ⟨j, hj, hd⟩)
      · exact Or.inl hd
      · exact Or.inr ⟨j, hmem j hj, hd⟩
    have hfresh : ∀ d, Source [] rest d → Source waiting ((b, i) :: rest) d := by
      rintro d (⟨g, hg, -⟩ | ⟨j, hj, hd⟩)
      · cases hg
      · exact Or.inr ⟨j, hmem j hj, hd⟩
    unfold plan at ha
    split at ha
    · rcases List.mem_cons.mp ha with rfl | ha
      · exact .skipReloaded
      · exact (ih ha).mono hlater hmem
    · split at ha
      · split at ha
        · -- the document joins those that wait
          rename_i d hd
          refine (ih ha).mono ?_ hmem
          rintro e (⟨g, hg, he⟩ | ⟨j, hj, he⟩)
          · rcases mem_add hg he with rfl | he
            · exact Or.inr ⟨(b, i), List.mem_cons_self, hd⟩
            · exact Or.inl he
          · exact Or.inr ⟨j, hmem j hj, he⟩
        · rename_i e he
          rcases List.mem_cons.mp ha with rfl | ha
          · exact .refuse List.mem_cons_self he
          · exact (ih ha).mono hlater hmem
      · rcases List.mem_append.mp ha with ha | ha
        · exact hflush ha
        · rcases List.mem_cons.mp ha with rfl | ha
          · exact .update List.mem_cons_self
          · exact (ih ha).mono hfresh hmem
      · split at ha
        · rcases List.mem_cons.mp ha with rfl | ha
          · exact .skipKept
          · exact (ih ha).mono hlater hmem
        · rcases List.mem_append.mp ha with ha | ha
          · exact hflush ha
          · rcases List.mem_cons.mp ha with rfl | ha
            · exact .remove List.mem_cons_self
            · exact (ih ha).mono hfresh hmem

end Plan

theorem mem_bound {bindings : List (Binding Object)} {batch : List (Intent Object)}
    {intents : List (Binding Object × Intent Object)} (h : bound bindings batch = .ok intents) :
    ∀ i ∈ intents, i.2 ∈ batch ∧ Binding.find? bindings i.2.typeName = some i.1 := by
  induction batch generalizing intents with
  | nil =>
    obtain rfl : [] = intents := by simpa [bound, pure, Except.pure] using h
    simp
  | cons i batch ih =>
    simp only [bound, List.mapM_cons] at h
    cases hb : Binding.find? bindings i.typeName with
    | none =>
      rw [hb] at h
      cases h
    | some b =>
      cases hrest : bound bindings batch with
      | error e =>
        rw [hb] at h
        unfold bound at hrest
        rw [hrest] at h
        cases h
      | ok rest =>
        have hmem := ih hrest
        unfold bound at hrest
        rw [hb, hrest] at h
        obtain rfl : (b, i) :: rest = intents := by
          simpa [bind, Except.bind, pure, Except.pure] using h
        intro j hj
        rcases List.mem_cons.mp hj with rfl | hj
        · exact ⟨List.mem_cons_self, hb⟩
        · exact ⟨List.mem_cons_of_mem _ (hmem j hj).1, (hmem j hj).2⟩

theorem bound_cons (bindings : List (Binding Object)) (i : Intent Object)
    (batch : List (Intent Object)) :
    bound bindings (i :: batch) =
      match Binding.find? bindings i.typeName with
      | some b => (bound bindings batch).map ((b, i) :: ·)
      | none => .error (.unknownType i.typeName) := by
  simp only [bound, List.mapM_cons]
  cases Binding.find? bindings i.typeName with
  | none => rfl
  | some b => rfl

theorem bound_of_known {bindings : List (Binding Object)} {batch : List (Intent Object)}
    (h : ∀ i ∈ batch, (Binding.find? bindings i.typeName).isSome) :
    bound bindings batch = .ok (paired bindings batch) := by
  induction batch with
  | nil => rfl
  | cons i batch ih =>
    obtain ⟨b, hb⟩ := Option.isSome_iff_exists.mp (h i List.mem_cons_self)
    rw [bound_cons, ih fun j hj => h j (List.mem_cons_of_mem _ hj)]
    simp [paired, hb, Except.map]

theorem eq_paired_of_bound {bindings : List (Binding Object)} {batch : List (Intent Object)}
    {intents : List (Binding Object × Intent Object)} (h : bound bindings batch = .ok intents) :
    intents = paired bindings batch := by
  induction batch generalizing intents with
  | nil => exact (Except.ok.inj h).symm
  | cons i batch ih =>
    rw [bound_cons] at h
    cases hb : Binding.find? bindings i.typeName with
    | none => simp [hb] at h
    | some b =>
      cases hrest : bound bindings batch with
      | error e => simp [hb, hrest, Except.map] at h
      | ok rest =>
        obtain rfl : (b, i) :: rest = intents := by simpa [hb, hrest, Except.map] using h
        simp [paired, hb, ih hrest]

theorem bound_of_unknown {bindings : List (Binding Object)} {before after : List (Intent Object)}
    {i : Intent Object} (h : ∀ j ∈ before, (Binding.find? bindings j.typeName).isSome)
    (hi : Binding.find? bindings i.typeName = none) :
    bound bindings (before ++ i :: after) = .error (.unknownType i.typeName) := by
  induction before with
  | nil => rw [List.nil_append, bound_cons, hi]
  | cons j before ih =>
    obtain ⟨b, hb⟩ := Option.isSome_iff_exists.mp (h j List.mem_cons_self)
    rw [List.cons_append, bound_cons, hb, ih fun k hk => h k (List.mem_cons_of_mem _ hk)]
    rfl

theorem planned_removeAction (b : Binding Object) (object : Object) :
    (removeAction b object).Planned := by
  unfold removeAction
  split
  · trivial
  · rename_i d hd
    split
    · rename_i v hv
      exact Document.isNull_of_identity? hv
    · trivial

theorem planned_of_mem_plan {waiting : Waiting} {intents : List (Binding Object × Intent Object)} :
    ∀ a ∈ plan waiting intents, a.Planned := by
  intro a ha
  cases arises_of_mem_plan ha with
  | skipReloaded => trivial
  | skipKept => trivial
  | refuse => trivial
  | insertAll => trivial
  | @update b i hi =>
    unfold updateAction
    split <;> trivial
  | @remove b i hi => exact planned_removeAction b i.object

theorem planned_of_mem {bindings : List (Binding Object)} {batch : List (Intent Object)} :
    ∀ a ∈ planned bindings batch, a.Planned := by
  unfold planned
  cases hb : bound bindings batch with
  | error e => simp
  | ok intents => exact planned_of_mem_plan

theorem Arises.keyed {intents : List (Binding Object × Intent Object)} {a : Action}
    (hdoc : ∀ i ∈ intents, ∃ d k, i.1.document i.2.object = .ok d ∧ d.key? = some k)
    (ha : Arises [] intents a) : a.Keyed := by
  cases ha with
  | skipReloaded => trivial
  | skipKept => trivial
  | refuse hi he =>
    obtain ⟨d, k, hd, -⟩ := hdoc _ hi
    rw [hd] at he
    cases he
  | insertAll hg =>
    intro d hd
    rcases hg d hd with ⟨g, hg, -⟩ | ⟨i, hi, hi'⟩
    · cases hg
    · obtain ⟨e, k, he, hk⟩ := hdoc i hi
      obtain rfl := Except.ok.inj (he.symm.trans hi')
      exact ⟨k, hk⟩
  | @update b i hi =>
    obtain ⟨d, k, hd, hk⟩ := hdoc _ hi
    simp only [updateAction, hd]
    exact ⟨k, hk⟩
  | @remove b i hi =>
    obtain ⟨d, k, hd, hk⟩ := hdoc _ hi
    obtain ⟨v, hv, -⟩ := Option.map_eq_some_iff.mp hk
    simp only [removeAction, hd, hv]
    exact Document.isNull_of_identity? hv

theorem keyed_planned {bindings : List (Binding Object)} {batch : List (Intent Object)}
    (hconv : Convertible bindings batch) : ∀ a ∈ planned bindings batch, a.Keyed := by
  unfold planned
  cases hb : bound bindings batch with
  | error e => simp
  | ok intents =>
    intro a ha
    refine (arises_of_mem_plan ha).keyed fun i hi => ?_
    obtain ⟨hmem, hfind⟩ := mem_bound hb i hi
    exact hconv i.2 hmem i.1 hfind

theorem synchronize_cases (bindings : List (Binding Object)) (t : Triage)
    (batch : List (Intent Object)) :
    synchronize bindings t batch = carryOut t {} (planned bindings batch) ∨
      ∃ e, synchronize bindings t batch = .done ([], .error e) := by
  unfold synchronize planned
  cases bound bindings batch with
  | ok intents => exact Or.inl rfl
  | error e => exact Or.inr ⟨e, rfl⟩

/-! A replica of fruits that stops a batch at the first transient failure. -/

def fruitReplica : Replica Value where
  settings := {}
  registry := ⟨[fruitType]⟩
  bindings := [fruits]
  triage := ⟨.rethrowTransient, []⟩

end Sync

end StoredObjects
