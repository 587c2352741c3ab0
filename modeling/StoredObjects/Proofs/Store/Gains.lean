import StoredObjects.Proofs.Collection.Keyed
import StoredObjects.Proofs.Store.Contents

/-! # What a store gains by a call

Under every key a store holds what it held before, or nothing, or a document that the call brought.
Only the property of documents matters here that is of interest: when the documents of a call have
it, so has all that is new.
-/

namespace StoredObjects

namespace Collection

variable {P : Document → Prop} {a b c : Collection} {d : Document} {k : String}

/-- What `b` holds under a key and `a` did not has the property. -/
def Gains (P : Document → Prop) (a b : Collection) : Prop :=
  ∀ k d, b.stored.get? k = some d → a.stored.get? k = some d ∨ P d

theorem Gains.refl (a : Collection) : Gains P a a := fun _ _ h => Or.inl h

theorem Gains.trans (h : Gains P a b) (h' : Gains P b c) : Gains P a c := by
  intro k d hd
  rcases h' k d hd with hb | hP
  · exact h k d hb
  · exact Or.inr hP

theorem gains_put (hd : P d) : Gains P c (c.put k d) := by
  intro j e he
  by_cases hj : j = k
  · subst hj
    rw [stored_put, TextMap.get?_insert_self] at he
    exact Or.inr (Option.some.inj he ▸ hd)
  · rw [stored_put, TextMap.get?_insert_of_ne _ _ hj] at he
    exact Or.inl he

theorem gains_filter (p : String → Document → Bool) :
    Gains P c { c with stored := c.stored.filter p } := by
  intro j e he
  have hmem := (TextMap.mem_entries_iff _).mpr he
  exact Or.inl ((TextMap.mem_entries_iff _).mp (List.mem_filter.mp hmem).1)

theorem gains_drop : Gains P c (c.drop k) := gains_filter _

theorem gains_removeExact (template : Document) : Gains P c (c.removeExact template) := by
  unfold removeExact
  split
  · split
    · exact gains_drop
    · exact .refl c
  · exact gains_filter _

theorem gains_delete (template : Document) : Gains P c (c.delete template) := by
  unfold delete
  split
  · split
    · exact gains_drop
    · exact .refl c
  · exact gains_removeExact template

theorem gains_insert (hd : P d) (h : c.insert d = .ok b) : Gains P c b := by
  cases hk : d.key? with
  | none => simp [insert, keyFor, hk, bind, Except.bind] at h
  | some k =>
    rw [insert_of_key? hk] at h
    split at h
    · cases h
    · obtain rfl := Except.ok.inj h
      exact gains_put hd

theorem gains_insertAll {ds : List Document} (hds : ∀ d ∈ ds, P d) :
    Gains P c (c.insertAll ds).1 := by
  induction ds generalizing c with
  | nil => exact .refl c
  | cons d ds ih =>
    unfold insertAll
    cases h : c.insert d with
    | error e => exact .refl c
    | ok b =>
      exact (gains_insert (hds d List.mem_cons_self) h).trans
        (ih fun e he => hds e (List.mem_cons_of_mem _ he))

theorem gains_replace {old new : Document} (hnew : P new) (h : c.replace old new = .ok b) :
    Gains P c b := by
  cases hk : new.key? with
  | none => simp [replace, keyFor, hk, bind, Except.bind] at h
  | some k =>
    simp only [replace, keyFor, hk, bind, Except.bind] at h
    split at h
    · obtain rfl := Except.ok.inj h
      exact gains_put hnew
    · split at h
      · cases h
      · obtain rfl := Except.ok.inj h
        exact (gains_put hnew).trans (gains_removeExact old)

end Collection

def Call.Brings (P : Document → Prop) : Call → Prop
  | insert d | update d => P d
  | insertAll ds => ∀ d ∈ ds, P d
  | replace _ new => P new
  | findAll | findShare _ | findById _ | findByQuery _ | delete _ => True

theorem Call.brings_of_not_writes {P : Document → Prop} {c : Call} (hc : c.writes = false) :
    c.Brings P := by
  cases c <;> trivial

namespace Store

variable {s : Store} {P : Document → Prop}

/-- Identities that a store hands out take nothing away from the property. -/
theorem gains_answer (hs : s.InMemory) (hP : ∀ d identity, P d → P (d.orIdentity identity))
    {c : Call} (hc : c.Brings P) : Collection.Gains P s.collection (s.answer c).1.collection := by
  have hsettle : ∀ {r : Except Failure Collection},
      (∀ b, r = .ok b → Collection.Gains P s.collection b) →
        Collection.Gains P s.collection ((s.note c).settle r).1.collection := by
    intro r hr
    cases r with
    | ok b => exact hr b rfl
    | error e => exact .refl _
  rw [answer_of_inMemory hs]
  cases c with
  | insert d =>
    simp only [effect, Store.insert]
    split
    · rename_i b hb
      exact Collection.gains_insert (hP d _ hc) hb
    · exact .refl _
  | insertAll ds =>
    refine Collection.gains_insertAll fun d hd => ?_
    obtain ⟨i, hi, rfl⟩ := List.getElem_of_mem hd
    obtain ⟨hlt, heq⟩ := getElem_identified _ _ hi
    rw [heq]
    exact hP _ _ (hc _ (List.getElem_mem hlt))
  | update d =>
    refine hsettle fun b hb => ?_
    cases hk : d.key? with
    | none =>
      rw [Collection.update_of_no_key? hk] at hb
      cases hb
    | some k =>
      rw [Collection.update_of_key? hk] at hb
      obtain rfl := Except.ok.inj hb
      exact Collection.gains_put hc
  | replace old new => exact hsettle fun b hb => Collection.gains_replace hc hb
  | delete template => exact Collection.gains_delete template
  | _ => exact .refl _

end Store

end StoredObjects
