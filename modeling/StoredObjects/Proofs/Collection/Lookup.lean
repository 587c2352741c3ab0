import StoredObjects.Collection

/-! # Look-ups after writes

A collection is observed by what it holds under each key. Every write is described by the look-ups
it changes; all other look-ups stay as they were. A batch of strict inserts has three descriptions:
what a batch that succeeds found free and leaves stored, what no batch can touch, and what becomes
of a document in a batch that meets a taken key.
-/

namespace StoredObjects

namespace Document

theorem versionField_ne_identityField : versionField ≠ identityField := by decide

theorem identity?_ofIdentity {v : Value} (hv : v.isNull = false) :
    (ofIdentity v).identity? = some v := by
  simp [ofIdentity, setIdentity, identity?, hv]

theorem key?_ofIdentity {v : Value} (hv : v.isNull = false) :
    (ofIdentity v).key? = some (keyOf v) := by
  simp [key?, identity?_ofIdentity hv]

theorem isIdentityOnly_ofIdentity {v : Value} (hv : v.isNull = false) :
    (ofIdentity v).isIdentityOnly = true := by
  simp only [isIdentityOnly, identity?_ofIdentity hv]
  rfl

theorem isNull_of_identity? {d : Document} {v : Value} (h : d.identity? = some v) :
    v.isNull = false := by
  simpa using (Option.filter_eq_some_iff.mp h).2

theorem key?_of_identity? {d : Document} {v : Value} (h : d.identity? = some v) :
    d.key? = some (keyOf v) := by simp [key?, h]

theorem exists_key?_iff {d : Document} : (∃ k, d.key? = some k) ↔ d.identity?.isSome = true := by
  rw [← Option.isSome_iff_exists, key?, Option.isSome_map]

theorem exists_key?_orIdentity (d : Document) (s : String) :
    ∃ k, (d.orIdentity s).key? = some k := by
  unfold orIdentity
  split
  · rename_i h
    exact exists_key?_iff.mpr h
  · exact ⟨_, key?_of_identity? (v := .text s) (by simp [setIdentity, identity?, Value.isNull])⟩

theorem orIdentity_of_key? {d : Document} {k : String} (h : d.key? = some k) (s : String) :
    d.orIdentity s = d := by
  obtain ⟨v, hv, -⟩ := Option.map_eq_some_iff.mp h
  simp [orIdentity, hv]

theorem key?_orIdentity_of_no_key? {d : Document} (h : d.key? = none) (s : String) :
    (d.orIdentity s).key? = some (keyOf (.text s)) := by
  have hd : d.identity? = none := Option.map_eq_none_iff.mp h
  simp only [orIdentity, hd, Option.isSome_none, Bool.false_eq_true, if_false]
  exact key?_of_identity? (by simp [setIdentity, identity?, Value.isNull])

end Document

namespace Collection

variable {c : Collection} {d : Document} {k : String}

@[simp] theorem stored_put (c : Collection) (k : String) (d : Document) :
    (c.put k d).stored = c.stored.insert k d := rfl

@[simp] theorem stored_drop (c : Collection) (k : String) :
    (c.drop k).stored = c.stored.erase k := rfl

/-! ## Single writes -/

theorem insert_of_key? (h : d.key? = some k) :
    c.insert d = if c.stored.contains k then .error (c.duplicate k) else .ok (c.put k d) := by
  simp only [insert, keyFor, h]
  rfl

theorem insert_of_free (h : d.key? = some k) (hk : c.stored.get? k = none) :
    c.insert d = .ok (c.put k d) := by
  simp [insert_of_key? h, TextMap.contains, hk]

theorem insert_of_taken {e : Document} (h : d.key? = some k) (hk : c.stored.get? k = some e) :
    c.insert d = .error (c.duplicate k) := by
  simp [insert_of_key? h, TextMap.contains, hk]

theorem update_of_key? (h : d.key? = some k) : c.update d = .ok (c.put k d) := by
  simp only [update, keyFor, h]
  rfl

theorem update_of_no_key? (h : d.key? = none) :
    c.update d =
      .error (.illegalArgument s!"document without '_id' cannot be written to '{c.name}'") := by
  simp only [update, keyFor, h]
  rfl

theorem delete_ofIdentity {v : Value} (hv : v.isNull = false) :
    c.delete (.ofIdentity v) = c.drop (Document.keyOf v) := by
  simp [delete, Document.isIdentityOnly_ofIdentity hv, Document.key?_ofIdentity hv]

theorem replace_of_key?_eq {old new : Document} (ho : old.key? = some k)
    (hn : new.key? = some k) : c.replace old new = .ok (c.put k new) := by
  simp only [replace, keyFor, hn, ho]
  exact if_pos rfl

theorem put_comm {e : Document} {j : String} (h : k ≠ j) :
    (c.put k d).put j e = (c.put j e).put k d := by
  have hstored : (c.stored.insert k d).insert j e = (c.stored.insert j e).insert k d := by
    apply TextMap.ext_get?
    intro i
    by_cases hk : i = k
    · subst hk
      rw [TextMap.get?_insert_of_ne _ _ h, TextMap.get?_insert_self, TextMap.get?_insert_self]
    · by_cases hj : i = j
      · subst hj
        rw [TextMap.get?_insert_self, TextMap.get?_insert_of_ne _ _ hk, TextMap.get?_insert_self]
      · rw [TextMap.get?_insert_of_ne _ _ hj, TextMap.get?_insert_of_ne _ _ hk,
          TextMap.get?_insert_of_ne _ _ hk, TextMap.get?_insert_of_ne _ _ hj]
  exact congrArg (Collection.mk c.name) hstored

/-! ## Names -/

theorem name_of_insert {c' : Collection} (h : c.insert d = .ok c') : c'.name = c.name := by
  cases hk : d.key? with
  | none => simp [insert, keyFor, hk, bind, Except.bind] at h
  | some k =>
    rw [insert_of_key? hk] at h
    split at h
    · cases h
    · exact Except.ok.inj h ▸ rfl

theorem name_of_update {c' : Collection} (h : c.update d = .ok c') : c'.name = c.name := by
  cases hk : d.key? with
  | none => cases h.symm.trans (update_of_no_key? hk)
  | some k => exact Except.ok.inj (h.symm.trans (update_of_key? hk)) ▸ rfl

theorem name_removeExact (c : Collection) (template : Document) :
    (c.removeExact template).name = c.name := by
  unfold removeExact
  split
  · split <;> rfl
  · rfl

theorem name_of_replace {c' : Collection} {old new : Document} (h : c.replace old new = .ok c') :
    c'.name = c.name := by
  cases hn : new.key? with
  | none => simp [replace, keyFor, hn, bind, Except.bind] at h
  | some k =>
    simp only [replace, keyFor, hn, bind, Except.bind] at h
    split at h
    · exact Except.ok.inj h ▸ rfl
    · split at h
      · cases h
      · exact Except.ok.inj h ▸ name_removeExact _ old

theorem name_delete (c : Collection) (template : Document) :
    (c.delete template).name = c.name := by
  unfold delete
  split
  · split <;> rfl
  · exact name_removeExact c template

/-! ## Batches of strict inserts -/

theorem name_insertAll (c : Collection) (ds : List Document) :
    (c.insertAll ds).1.name = c.name := by
  induction ds generalizing c with
  | nil => rfl
  | cons d ds ih =>
    cases hd : c.insert d with
    | error e => simp only [insertAll, hd]
    | ok c' =>
      simp only [insertAll, hd]
      exact (ih c').trans (name_of_insert hd)

/-- Every document has a key, and no two share one. -/
structure Distinct (ds : List Document) : Prop where
  keyed : ∀ d ∈ ds, ∃ k, d.key? = some k
  apart : ds.Pairwise fun d e => d.key? ≠ e.key?

theorem Distinct.tail {ds : List Document} (h : Distinct (d :: ds)) : Distinct ds :=
  ⟨fun e he => h.keyed e (List.mem_cons_of_mem _ he), (List.pairwise_cons.mp h.apart).2⟩

theorem Distinct.head_ne {ds : List Document} (h : Distinct (d :: ds)) :
    ∀ e ∈ ds, d.key? ≠ e.key? := (List.pairwise_cons.mp h.apart).1

theorem insertAll_of_free {ds : List Document} (h : d.key? = some k)
    (hk : c.stored.get? k = none) : c.insertAll (d :: ds) = (c.put k d).insertAll ds := by
  simp [insertAll, insert_of_free h hk]

theorem insertAll_of_taken {ds : List Document} {e : Document} (h : d.key? = some k)
    (hk : c.stored.get? k = some e) : c.insertAll (d :: ds) = (c, .error (c.duplicate k)) := by
  simp [insertAll, insert_of_taken h hk]

/-- A batch changes nothing under a key that none of its documents has. -/
theorem get?_insertAll_of_not_mem {ds : List Document} (hkeyed : ∀ d ∈ ds, ∃ k, d.key? = some k)
    (hk : ∀ d ∈ ds, d.key? ≠ some k) : (c.insertAll ds).1.stored.get? k = c.stored.get? k := by
  induction ds generalizing c with
  | nil => rfl
  | cons d ds ih =>
    obtain ⟨j, hj⟩ := hkeyed d List.mem_cons_self
    have hne : k ≠ j := fun heq => hk d List.mem_cons_self (heq ▸ hj)
    cases hfree : c.stored.get? j with
    | some e => rw [insertAll_of_taken hj hfree]
    | none =>
      rw [insertAll_of_free hj hfree, ih (fun e he => hkeyed e (List.mem_cons_of_mem _ he))
        (fun e he => hk e (List.mem_cons_of_mem _ he))]
      exact TextMap.get?_insert_of_ne _ _ hne

/-- A batch never fails otherwise than on a taken key. -/
theorem insertAll_result {ds : List Document} (hkeyed : ∀ d ∈ ds, ∃ k, d.key? = some k) :
    (c.insertAll ds).2 = .ok () ∨
      ∃ name key, (c.insertAll ds).2 = .error (.duplicateDocumentKey name key) := by
  induction ds generalizing c with
  | nil => exact Or.inl rfl
  | cons d ds ih =>
    obtain ⟨j, hj⟩ := hkeyed d List.mem_cons_self
    cases hfree : c.stored.get? j with
    | some e =>
      rw [insertAll_of_taken hj hfree]
      exact Or.inr ⟨_, _, rfl⟩
    | none =>
      rw [insertAll_of_free hj hfree]
      exact ih fun e he => hkeyed e (List.mem_cons_of_mem _ he)

/-- What a batch that succeeds found and what it leaves. -/
structure Added (before after : Collection) (ds : List Document) : Prop where
  distinct : Distinct ds
  free : ∀ d ∈ ds, ∀ k, d.key? = some k → before.stored.get? k = none
  stored : ∀ d ∈ ds, ∀ k, d.key? = some k → after.stored.get? k = some d

theorem added_of_insertAll_ok {ds : List Document} (hkeyed : ∀ d ∈ ds, ∃ k, d.key? = some k)
    (hok : (c.insertAll ds).2 = .ok ()) : Added c (c.insertAll ds).1 ds := by
  induction ds generalizing c with
  | nil => exact ⟨⟨by simp, .nil⟩, by simp, by simp⟩
  | cons d ds ih =>
    obtain ⟨j, hj⟩ := hkeyed d List.mem_cons_self
    have hrest : ∀ e ∈ ds, ∃ k, e.key? = some k :=
      fun e he => hkeyed e (List.mem_cons_of_mem _ he)
    cases hfree : c.stored.get? j with
    | some e =>
      rw [insertAll_of_taken hj hfree] at hok
      cases hok
    | none =>
      rw [insertAll_of_free hj hfree] at hok ⊢
      have hadd := ih hrest hok
      have hne : ∀ e ∈ ds, d.key? ≠ e.key? := by
        intro e he heq
        have := hadd.free e he j (heq ▸ hj)
        simp at this
      refine ⟨⟨hkeyed, List.pairwise_cons.mpr ⟨hne, hadd.distinct.apart⟩⟩, ?_, ?_⟩
      · intro e he k hek
        rcases List.mem_cons.mp he with rfl | he
        · rw [hj] at hek
          cases hek
          exact hfree
        · have hkj : k ≠ j := fun heq => hne e he (by rw [hek, hj, heq])
          have := hadd.free e he k hek
          rwa [stored_put, TextMap.get?_insert_of_ne _ _ hkj] at this
      · intro e he k hek
        rcases List.mem_cons.mp he with rfl | he
        · rw [hj] at hek
          cases hek
          rw [get?_insertAll_of_not_mem hrest (fun e' he' => by rw [← hj]; exact (hne e' he').symm)]
          simp
        · exact hadd.stored e he k hek

theorem insertAll_ok_of_free {ds : List Document} (hds : Distinct ds)
    (hfree : ∀ d ∈ ds, ∀ k, d.key? = some k → c.stored.get? k = none) :
    (c.insertAll ds).2 = .ok () := by
  induction ds generalizing c with
  | nil => rfl
  | cons d ds ih =>
    obtain ⟨j, hj⟩ := hds.keyed d List.mem_cons_self
    rw [insertAll_of_free hj (hfree d List.mem_cons_self j hj)]
    refine ih hds.tail fun e he k hek => ?_
    have hkj : k ≠ j := fun heq => hds.head_ne e he (by rw [hek, hj, heq])
    rw [stored_put, TextMap.get?_insert_of_ne _ _ hkj]
    exact hfree e (List.mem_cons_of_mem _ he) k hek

/-- The document behind `front` is added when everything up to it finds its place free. -/
theorem get?_insertAll_of_front_free {front back : List Document}
    (hds : Distinct (front ++ d :: back)) (hk : d.key? = some k)
    (hfront : ∀ e ∈ front, ∀ j, e.key? = some j → c.stored.get? j = none)
    (hfree : c.stored.get? k = none) :
    (c.insertAll (front ++ d :: back)).1.stored.get? k = some d := by
  induction front generalizing c with
  | nil =>
    rw [List.nil_append, insertAll_of_free hk hfree, get?_insertAll_of_not_mem hds.tail.keyed
      (fun e he => by rw [← hk]; exact (hds.head_ne e he).symm)]
    simp
  | cons e front ih =>
    obtain ⟨j, hj⟩ := hds.keyed e (by simp)
    have hjd : k ≠ j := fun heq => hds.head_ne d (by simp) (by rw [hj, hk, heq])
    rw [List.cons_append, insertAll_of_free hj (hfront e List.mem_cons_self j hj)]
    refine ih hds.tail ?_ ?_
    · intro e' he' i hi
      have hij : i ≠ j := fun heq => hds.head_ne e' (by simp [he']) (by rw [hj, hi, heq])
      rw [stored_put, TextMap.get?_insert_of_ne _ _ hij]
      exact hfront e' (List.mem_cons_of_mem _ he') i hi
    · rwa [stored_put, TextMap.get?_insert_of_ne _ _ hjd]

/-- The document behind `front` leaves its place as it was when something in front of it, or the
document itself, finds its place taken. -/
theorem get?_insertAll_of_taken {front back : List Document}
    (hds : Distinct (front ++ d :: back)) (hk : d.key? = some k)
    (htaken : ∃ e ∈ front ++ [d], ∃ j, e.key? = some j ∧ c.stored.get? j ≠ none) :
    (c.insertAll (front ++ d :: back)).1.stored.get? k = c.stored.get? k := by
  induction front generalizing c with
  | nil =>
    obtain ⟨e, he, j, hj, hne⟩ := htaken
    obtain rfl : e = d := by simpa using he
    obtain rfl : j = k := by simpa [hk] using hj.symm
    obtain ⟨e', he'⟩ := Option.ne_none_iff_exists'.mp hne
    rw [List.nil_append, insertAll_of_taken hk he']
  | cons e front ih =>
    obtain ⟨j, hj⟩ := hds.keyed e (by simp)
    have hjd : k ≠ j := fun heq => hds.head_ne d (by simp) (by rw [hj, hk, heq])
    cases hfree : c.stored.get? j with
    | some e' => rw [List.cons_append, insertAll_of_taken hj hfree]
    | none =>
      rw [List.cons_append, insertAll_of_free hj hfree]
      have hput : ∀ i, i ≠ j → (c.put j e).stored.get? i = c.stored.get? i :=
        fun i hi => TextMap.get?_insert_of_ne _ _ hi
      rw [← hput k hjd]
      refine ih hds.tail ?_
      obtain ⟨e', he', i, hi, hne⟩ := htaken
      have hij : i ≠ j := fun heq => hne (heq ▸ hfree)
      rcases List.mem_cons.mp he' with rfl | he'
      · exact absurd (Option.some.inj (hi.symm.trans hj)) hij
      · exact ⟨e', he', i, hi, by rwa [hput i hij]⟩

theorem insertAll_append (c : Collection) (ds es : List Document) :
    c.insertAll (ds ++ es) =
      match (c.insertAll ds).2 with
      | .ok () => (c.insertAll ds).1.insertAll es
      | .error e => ((c.insertAll ds).1, .error e) := by
  induction ds generalizing c with
  | nil => rfl
  | cons d ds ih =>
    cases hd : c.insert d with
    | error e => simp only [List.cons_append, insertAll, hd]
    | ok c =>
      simp only [List.cons_append, insertAll, hd]
      exact ih c

/-- A document that nothing else in the batch can be mistaken for is added exactly when all
documents in front of it are. -/
theorem get?_insertAll_behind {front back : List Document} (hk : d.key? = some k)
    (hfree : c.stored.get? k = none) (hkeyed : ∀ e ∈ front ++ back, ∃ j, e.key? = some j)
    (hne : ∀ e ∈ front ++ back, e.key? ≠ some k) :
    ((c.insertAll front).2 = .ok () →
        (c.insertAll (front ++ d :: back)).1.stored.get? k = some d) ∧
      ((c.insertAll front).2 ≠ .ok () →
        (c.insertAll (front ++ d :: back)).1.stored.get? k = none) := by
  have hfront : (c.insertAll front).1.stored.get? k = none := by
    rw [get?_insertAll_of_not_mem (fun e he => hkeyed e (List.mem_append_left _ he))
      (fun e he => hne e (List.mem_append_left _ he))]
    exact hfree
  rw [insertAll_append]
  cases hok : (c.insertAll front).2 with
  | ok u =>
    refine ⟨fun _ => ?_, fun h => absurd rfl h⟩
    simp only
    rw [insertAll_of_free hk hfront,
      get?_insertAll_of_not_mem (fun e he => hkeyed e (List.mem_append_right _ he))
        (fun e he => hne e (List.mem_append_right _ he))]
    simp
  | error e => exact ⟨nofun, fun _ => hfront⟩

end Collection

end StoredObjects
