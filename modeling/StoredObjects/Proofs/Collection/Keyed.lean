import Mathlib.Data.List.Perm.Basic
import StoredObjects.Proofs.Collection.Lookup

/-! # Collections as sets of documents

A collection that holds every document under the key of its identity is determined by its name and
its documents, and no two of these share a key. A document can then be exchanged for a new form of
it: when the new form has the same key, or a key that nothing is stored under, it takes the place of
the old form among the documents and all others stay.
-/

namespace StoredObjects

namespace Value

mutual

theorem same_refl : (v : Value) → v.same v = true
  | null => rfl
  | bool b => by simp [same]
  | number (.int i) => by simp [same, Number.same]
  | number (.float x) => by simp [same, Number.same, Binary64.same]
  | text s => by simp [same]
  | array items => by simpa [same] using sameItems_refl items
  | object fields => by simpa [same] using sameFields_refl fields

theorem sameItems_refl : (items : List Value) → sameItems items items = true
  | [] => rfl
  | v :: items => by simp [sameItems, same_refl v, sameItems_refl items]

theorem sameFields_refl : (fields : List (String × Value)) → sameFields fields fields = true
  | [] => rfl
  | (k, v) :: fields => by simp [sameFields, same_refl v, sameFields_refl fields]

end

end Value

theorem Document.same_refl (d : Document) : d.same d = true := Value.same_refl d.toValue

namespace Collection

variable {c c' : Collection} {d e : Document} {k : String}

/-- Every document is stored under the key of its identity. -/
def Keyed (c : Collection) : Prop := ∀ k d, c.stored.get? k = some d → d.key? = some k

theorem mem_documents_iff : d ∈ c.documents ↔ ∃ k, c.stored.get? k = some d := by
  unfold documents TextMap.values
  rw [List.mem_map]
  constructor
  · rintro ⟨⟨k, d'⟩, hmem, rfl⟩
    exact ⟨k, (c.stored.mem_entries_iff).mp hmem⟩
  · rintro ⟨k, hk⟩
    exact ⟨(k, d), (c.stored.mem_entries_iff).mpr hk, rfl⟩

theorem Keyed.get?_iff (hc : c.Keyed) :
    c.stored.get? k = some d ↔ d ∈ c.documents ∧ d.key? = some k := by
  constructor
  · intro h
    exact ⟨mem_documents_iff.mpr ⟨k, h⟩, hc k d h⟩
  · rintro ⟨hd, hk⟩
    obtain ⟨j, hj⟩ := mem_documents_iff.mp hd
    obtain rfl : j = k := Option.some.inj ((hc j d hj).symm.trans hk)
    exact hj

theorem Keyed.key?_of_mem (hc : c.Keyed) (hd : d ∈ c.documents) : ∃ k, d.key? = some k := by
  obtain ⟨k, hk⟩ := mem_documents_iff.mp hd
  exact ⟨k, hc k d hk⟩

theorem Keyed.eq_of_key?_eq (hc : c.Keyed) (hd : d ∈ c.documents) (he : e ∈ c.documents)
    (h : d.key? = e.key?) : d = e := by
  obtain ⟨k, hk⟩ := hc.key?_of_mem hd
  have hdk := hc.get?_iff.mpr ⟨hd, hk⟩
  have hek := hc.get?_iff.mpr ⟨he, h ▸ hk⟩
  exact Option.some.inj (hdk.symm.trans hek)

theorem Keyed.get?_eq_none_iff (hc : c.Keyed) :
    c.stored.get? k = none ↔ ∀ d ∈ c.documents, d.key? ≠ some k := by
  constructor
  · intro h d hd hk
    rw [hc.get?_iff.mpr ⟨hd, hk⟩] at h
    cases h
  · intro h
    rw [Option.eq_none_iff_forall_ne_some]
    intro d hd
    obtain ⟨hmem, hk⟩ := hc.get?_iff.mp hd
    exact h d hmem hk

theorem Keyed.nodup_documents (hc : c.Keyed) : c.documents.Nodup := by
  have hkeys : c.documents.Pairwise fun d e => d.key? ≠ e.key? := by
    unfold documents TextMap.values
    rw [List.pairwise_map]
    refine c.stored.ascending.imp_of_mem fun {x y} hx hy hlt heq => ?_
    have hxk := hc x.1 x.2 (c.stored.mem_entries_iff.mp hx)
    have hyk := hc y.1 y.2 (c.stored.mem_entries_iff.mp hy)
    rw [hxk, hyk] at heq
    exact String.lt_irrefl x.1 (Option.some.inj heq ▸ hlt)
  exact hkeys.imp fun h heq => h (congrArg Document.key? heq)

theorem Keyed.ext (hc : c.Keyed) (hc' : c'.Keyed) (hname : c.name = c'.name)
    (h : ∀ d, d ∈ c.documents ↔ d ∈ c'.documents) : c = c' := by
  have hstored : c.stored = c'.stored := by
    refine TextMap.ext_get? fun k => Option.ext fun d => ?_
    rw [hc.get?_iff, hc'.get?_iff, h d]
  cases c
  cases c'
  obtain rfl := hname
  obtain rfl := hstored
  rfl

theorem keyed_empty (name : String) : (empty name).Keyed := fun _ _ h => by cases h

theorem Keyed.put (hc : c.Keyed) (hk : d.key? = some k) : (c.put k d).Keyed := by
  intro j e he
  rw [stored_put, TextMap.get?_insert] at he
  split at he
  · rename_i hj
    obtain rfl := Option.some.inj he
    exact hj ▸ hk
  · exact hc j e he

theorem Keyed.drop (hc : c.Keyed) (k : String) : (c.drop k).Keyed := by
  intro j e he
  rw [stored_drop, TextMap.get?_erase] at he
  split at he
  · cases he
  · exact hc j e he

theorem Keyed.mem_put (hc : c.Keyed) (hk : d.key? = some k) :
    e ∈ (c.put k d).documents ↔ e = d ∨ e ∈ c.documents ∧ e.key? ≠ some k := by
  constructor
  · intro he
    obtain ⟨j, hj⟩ := (hc.put hk).key?_of_mem he
    have hget := (hc.put hk).get?_iff.mpr ⟨he, hj⟩
    rw [stored_put, TextMap.get?_insert] at hget
    split at hget
    · exact Or.inl (Option.some.inj hget).symm
    · rename_i hne
      obtain ⟨hmem, -⟩ := hc.get?_iff.mp hget
      refine Or.inr ⟨hmem, fun hek => hne ?_⟩
      exact Option.some.inj (hj.symm.trans hek)
  · rintro (rfl | ⟨he, hne⟩)
    · exact mem_documents_iff.mpr ⟨k, by simp⟩
    · obtain ⟨j, hj⟩ := hc.key?_of_mem he
      have hjk : j ≠ k := fun heq => hne (heq ▸ hj)
      refine mem_documents_iff.mpr ⟨j, ?_⟩
      rw [stored_put, TextMap.get?_insert_of_ne _ _ hjk]
      exact hc.get?_iff.mpr ⟨he, hj⟩

theorem Keyed.mem_drop (hc : c.Keyed) :
    e ∈ (c.drop k).documents ↔ e ∈ c.documents ∧ e.key? ≠ some k := by
  constructor
  · intro he
    obtain ⟨j, hj⟩ := (hc.drop k).key?_of_mem he
    have hget := (hc.drop k).get?_iff.mpr ⟨he, hj⟩
    rw [stored_drop, TextMap.get?_erase] at hget
    split at hget
    · cases hget
    · rename_i hne
      obtain ⟨hmem, -⟩ := hc.get?_iff.mp hget
      refine ⟨hmem, fun hek => hne ?_⟩
      exact Option.some.inj (hj.symm.trans hek)
  · rintro ⟨he, hne⟩
    obtain ⟨j, hj⟩ := hc.key?_of_mem he
    have hjk : j ≠ k := fun heq => hne (heq ▸ hj)
    refine mem_documents_iff.mpr ⟨j, ?_⟩
    rw [stored_drop, TextMap.get?_erase_of_ne _ hjk]
    exact hc.get?_iff.mpr ⟨he, hj⟩

theorem Keyed.documents_put (hc : c.Keyed) (hk : d.key? = some k)
    (hfree : c.stored.get? k = none) : (c.put k d).documents.Perm (d :: c.documents) := by
  have hother : ∀ e ∈ c.documents, e.key? ≠ some k := hc.get?_eq_none_iff.mp hfree
  have hnodup : (d :: c.documents).Nodup :=
    List.nodup_cons.mpr ⟨fun hd => hother d hd hk, hc.nodup_documents⟩
  refine (List.perm_ext_iff_of_nodup (hc.put hk).nodup_documents hnodup).mpr fun e => ?_
  rw [hc.mem_put hk, List.mem_cons]
  exact or_congr_right ⟨And.left, fun he => ⟨he, hother e he⟩⟩

theorem Keyed.documents_drop (hc : c.Keyed) (k : String) :
    c.documents.Perm ((c.stored.get? k).toList ++ (c.drop k).documents) := by
  have hnodup : ((c.stored.get? k).toList ++ (c.drop k).documents).Nodup := by
    cases hk : c.stored.get? k with
    | none => exact (hc.drop k).nodup_documents
    | some d =>
      refine List.nodup_cons.mpr ⟨fun hd => ?_, (hc.drop k).nodup_documents⟩
      exact (hc.mem_drop.mp hd).2 (hc k d hk)
  refine (List.perm_ext_iff_of_nodup hc.nodup_documents hnodup).mpr fun e => ?_
  rw [List.mem_append, Option.mem_toList, hc.mem_drop, hc.get?_iff]
  by_cases he : e.key? = some k <;> simp [he]

/-! ## New forms of documents -/

theorem removeExact_of_stored (hk : d.key? = some k) (hd : c.stored.get? k = some d) :
    c.removeExact d = c.drop k := by
  simp [removeExact, hk, hd, Document.same_refl]

theorem replace_moved {old new : Document} {j : String} (ho : old.key? = some k)
    (hold : c.stored.get? k = some old) (hn : new.key? = some j) (hne : k ≠ j)
    (hfree : c.stored.get? j = none) :
    c.replace old new = .ok ((c.put j new).drop k) := by
  have hstored : (c.put j new).stored.get? k = some old := by
    rw [stored_put, TextMap.get?_insert_of_ne _ _ hne, hold]
  simp only [replace, keyFor, hn, ho, bind, Except.bind, Option.some.injEq, hne, if_false,
    TextMap.contains, hfree, Option.isSome_none, Bool.false_eq_true,
    removeExact_of_stored ho hstored]

/-- The collection `c'` holds `new` in place of `old`, and all other documents of `c`. -/
structure Exchanged (c c' : Collection) (old new : Document) : Prop where
  keyed : c'.Keyed
  name : c'.name = c.name
  mem : ∀ e, e ∈ c'.documents ↔ e = new ∨ e ∈ c.documents ∧ e ≠ old

/-- A stored document is exchanged for a new form that has its key, or a free one. -/
theorem Keyed.replace (hc : c.Keyed) {old new : Document} (hold : old ∈ c.documents)
    (hn : new.key? = some k) (hfree : old.key? = some k ∨ c.stored.get? k = none) :
    ∃ c', c.replace old new = .ok c' ∧ Exchanged c c' old new := by
  obtain ⟨i, hi⟩ := hc.key?_of_mem hold
  have hget := hc.get?_iff.mpr ⟨hold, hi⟩
  have hkey : ∀ e ∈ c.documents, e.key? = some i ↔ e = old := by
    intro e he
    exact ⟨fun h => hc.eq_of_key?_eq he hold (h.trans hi.symm), fun h => h ▸ hi⟩
  by_cases hik : i = k
  · subst hik
    refine ⟨c.put i new, replace_of_key?_eq hi hn, hc.put hn, rfl, fun e => ?_⟩
    rw [hc.mem_put hn]
    constructor
    · rintro (he | ⟨he, hne⟩)
      · exact Or.inl he
      · exact Or.inr ⟨he, fun heq => hne ((hkey e he).mpr heq)⟩
    · rintro (he | ⟨he, hne⟩)
      · exact Or.inl he
      · exact Or.inr ⟨he, fun hek => hne ((hkey e he).mp hek)⟩
  · have hnone : c.stored.get? k = none := by
      rcases hfree with h | h
      · exact absurd (Option.some.inj (hi.symm.trans h)) hik
      · exact h
    refine ⟨(c.put k new).drop i, replace_moved hi hget hn hik hnone, (hc.put hn).drop i, rfl,
      fun e => ?_⟩
    rw [(hc.put hn).mem_drop, hc.mem_put hn]
    constructor
    · rintro ⟨rfl | ⟨he, -⟩, hne⟩
      · exact Or.inl rfl
      · exact Or.inr ⟨he, fun heq => hne ((hkey e he).mpr heq)⟩
    · rintro (rfl | ⟨he, hne⟩)
      · exact ⟨Or.inl rfl, fun h => hik (Option.some.inj (h.symm.trans hn))⟩
      · exact ⟨Or.inr ⟨he, hc.get?_eq_none_iff.mp hnone e he⟩, fun h => hne ((hkey e he).mp h)⟩

theorem replace_of_not_identified (c : Collection) (old : Document) {new : Document}
    (hn : new.key? = none) : ∃ e, c.replace old new = .error e := by
  simp only [replace, keyFor, hn]
  exact ⟨_, rfl⟩

theorem replace_of_taken {old new : Document} (hn : new.key? = some k) (ho : old.key? ≠ some k)
    (htaken : c.stored.get? k ≠ none) : c.replace old new = .error (c.duplicate k) := by
  have hcontains : c.stored.contains k = true := Option.isSome_iff_ne_none.mpr htaken
  simp only [replace, keyFor, hn, bind, Except.bind, ho, if_false, hcontains, if_true]

/-- What it takes to exchange a stored document, and what comes of it. -/
theorem Keyed.of_replace_stored (hc : c.Keyed) {old new : Document} (hold : old ∈ c.documents)
    (h : c.replace old new = .ok c') :
    (∃ k, new.key? = some k ∧ (old.key? = some k ∨ c.stored.get? k = none)) ∧
      Exchanged c c' old new := by
  cases hn : new.key? with
  | none =>
    obtain ⟨e, he⟩ := replace_of_not_identified c old hn
    cases h.symm.trans he
  | some k =>
    have hfree : old.key? = some k ∨ c.stored.get? k = none := by
      by_contra hno
      obtain ⟨ho, htaken⟩ := not_or.mp hno
      cases h.symm.trans (replace_of_taken hn ho htaken)
    obtain ⟨c'', hreplace, hexchanged⟩ := hc.replace hold hn hfree
    obtain rfl := Except.ok.inj (h.symm.trans hreplace)
    exact ⟨⟨k, rfl, hfree⟩, hexchanged⟩

end Collection

end StoredObjects
