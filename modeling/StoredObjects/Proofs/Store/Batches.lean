import StoredObjects.Proofs.Store.Exchange

/-! # Batches of strict inserts

A batch is added up to the first document whose key is taken, by the store or by a document in front
of it in the batch. A place of the batch is told by the key of the document there. The induction on
the batch moves the document in front over to the store, which leaves the taken places as they are.
-/

namespace StoredObjects

def Document.keyAt (ds : List Document) (i : Nat) : Option String := ds[i]?.bind Document.key?

namespace Collection

variable {c : Collection} {d : Document} {ds : List Document} {i : Nat} {k : String}

/-- The place `i` of a batch has the key `k`, and this key is stored already or stands in front. -/
def TakenAt (c : Collection) (ds : List Document) (i : Nat) (k : String) : Prop :=
  Document.keyAt ds i = some k ∧
    (c.stored.get? k ≠ none ∨ ∃ j < i, Document.keyAt ds j = some k)

structure FirstTaken (c : Collection) (ds : List Document) (i : Nat) (k : String) : Prop where
  taken : c.TakenAt ds i k
  first : ∀ j < i, ∀ k', ¬ c.TakenAt ds j k'

theorem get?_put_ne_none {j : String} :
    (c.put j d).stored.get? k ≠ none ↔ k = j ∨ c.stored.get? k ≠ none := by
  rw [stored_put, TextMap.get?_insert]
  by_cases hk : k = j <;> simp [hk]

/-! ## Places of a batch -/

theorem takenAt_zero (hk : d.key? = some k) {j : String} :
    c.TakenAt (d :: ds) 0 j ↔ j = k ∧ c.stored.get? k ≠ none := by
  simp only [TakenAt, Document.keyAt, List.getElem?_cons_zero, Option.bind_some, hk,
    Option.some.injEq, Nat.not_lt_zero, false_and, exists_false, or_false]
  constructor
  · rintro ⟨rfl, h⟩
    exact ⟨rfl, h⟩
  · rintro ⟨rfl, h⟩
    exact ⟨rfl, h⟩

/-- Behind the first document, the same places are taken when that document is stored. -/
theorem takenAt_succ (hk : d.key? = some k) {j : String} :
    c.TakenAt (d :: ds) (i + 1) j ↔ (c.put k d).TakenAt ds i j := by
  have hfront : (∃ n < i + 1, Document.keyAt (d :: ds) n = some j) ↔
      j = k ∨ ∃ n < i, Document.keyAt ds n = some j := by
    constructor
    · rintro ⟨n, hn, hj⟩
      cases n with
      | zero => exact Or.inl (Option.some.inj (hj.symm.trans hk))
      | succ n => exact Or.inr ⟨n, Nat.lt_of_succ_lt_succ hn, hj⟩
    · rintro (rfl | ⟨n, hn, hj⟩)
      · exact ⟨0, Nat.succ_pos i, hk⟩
      · exact ⟨n + 1, Nat.succ_lt_succ hn, hj⟩
  unfold TakenAt
  rw [hfront, get?_put_ne_none, or_assoc, or_left_comm]
  exact Iff.rfl

theorem FirstTaken.free (h : c.FirstTaken (d :: ds) (i + 1) k) {j : String}
    (hj : d.key? = some j) : c.stored.get? j = none := by
  by_contra hstored
  exact h.first 0 (Nat.succ_pos i) j ((takenAt_zero hj).mpr ⟨rfl, hstored⟩)

theorem FirstTaken.tail (h : c.FirstTaken (d :: ds) (i + 1) k) {j : String}
    (hj : d.key? = some j) : (c.put j d).FirstTaken ds i k :=
  ⟨(takenAt_succ hj).mp h.taken, fun n hn k' htaken =>
    h.first (n + 1) (Nat.succ_lt_succ hn) k' ((takenAt_succ hj).mpr htaken)⟩

/-! ## What becomes of a batch -/

theorem Keyed.insertAll_of_not_taken (hc : c.Keyed) (hds : ∀ d ∈ ds, ∃ k, d.key? = some k)
    (h : ∀ i k, ¬ c.TakenAt ds i k) :
    (c.insertAll ds).2 = .ok () ∧ (c.insertAll ds).1.documents.Perm (c.documents ++ ds) := by
  induction ds generalizing c with
  | nil => exact ⟨rfl, by rw [List.append_nil]; exact List.Perm.refl _⟩
  | cons d ds ih =>
    obtain ⟨j, hj⟩ := hds d List.mem_cons_self
    have hfree : c.stored.get? j = none := by
      by_contra hstored
      exact h 0 j ((takenAt_zero hj).mpr ⟨rfl, hstored⟩)
    obtain ⟨hok, hperm⟩ := ih (hc.put hj) (fun e he => hds e (List.mem_cons_of_mem _ he))
      fun i k htaken => h (i + 1) k ((takenAt_succ hj).mpr htaken)
    rw [insertAll_of_free hj hfree]
    exact ⟨hok, (hperm.trans ((hc.documents_put hj hfree).append_right ds)).trans
      List.perm_middle.symm⟩

theorem Keyed.insertAll_of_firstTaken (hc : c.Keyed) (hds : ∀ d ∈ ds, ∃ k, d.key? = some k)
    (h : c.FirstTaken ds i k) :
    (c.insertAll ds).2 = .error (c.duplicate k) ∧
      (c.insertAll ds).1.documents.Perm (c.documents ++ ds.take i) := by
  induction ds generalizing c i with
  | nil => cases h.taken.1
  | cons d ds ih =>
    obtain ⟨j, hj⟩ := hds d List.mem_cons_self
    cases i with
    | zero =>
      obtain ⟨rfl, hstored⟩ := (takenAt_zero hj).mp h.taken
      obtain ⟨e, he⟩ := Option.ne_none_iff_exists'.mp hstored
      rw [insertAll_of_taken hj he, List.take_zero, List.append_nil]
      exact ⟨rfl, List.Perm.refl _⟩
    | succ i =>
      obtain ⟨herror, hperm⟩ := ih (hc.put hj) (fun e he => hds e (List.mem_cons_of_mem _ he))
        (h.tail hj)
      rw [insertAll_of_free hj (h.free hj), List.take_succ_cons]
      exact ⟨herror, (hperm.trans ((hc.documents_put hj (h.free hj)).append_right _)).trans
        List.perm_middle.symm⟩

theorem get?_insertAll_of_stored (hds : ∀ d ∈ ds, ∃ k, d.key? = some k)
    (h : c.stored.get? k = some d) : (c.insertAll ds).1.stored.get? k = some d := by
  induction ds generalizing c with
  | nil => exact h
  | cons e ds ih =>
    obtain ⟨j, hj⟩ := hds e List.mem_cons_self
    cases hfree : c.stored.get? j with
    | some e' => rwa [insertAll_of_taken hj hfree]
    | none =>
      have hne : k ≠ j := fun heq => by cases (heq ▸ h).symm.trans hfree
      rw [insertAll_of_free hj hfree]
      refine ih (fun e he => hds e (List.mem_cons_of_mem _ he)) ?_
      rwa [stored_put, TextMap.get?_insert_of_ne _ _ hne]

end Collection

namespace Store

variable {s : Store} {name : String} {ds : List Document} {i : Nat} {k : String}

def insertEach (s : Store) : List Document → Store × Except Failure Unit
  | [] => (s, .ok ())
  | d :: ds =>
    match s.answer (.insert d) with
    | (s, .ok _) => s.insertEach ds
    | (s, .error e) => (s, .error e)

def given (s : Store) (ds : List Document) : List Document :=
  identified (fun i => s.supply (s.issued + i)) ds

def spareKey (s : Store) (i : Nat) : String := Document.keyOf (.text (s.supply (s.issued + i)))

/-- The identities that the store gives to documents without one are new to the store and to the
batch. -/
def Unused (s : Store) (ds : List Document) : Prop :=
  ∀ i < ds.length, Document.keyAt ds i = none →
    s.at? (s.spareKey i) = none ∧ ∀ j, j ≠ i → Document.keyAt (s.given ds) j ≠ some (s.spareKey i)

/-! ## Identities for a batch -/

theorem keyAt_given (h : Document.keyAt ds i = some k) :
    Document.keyAt (s.given ds) i = some k := by
  obtain ⟨d, hd, hk⟩ := Option.bind_eq_some_iff.mp h
  simp [Document.keyAt, given, identified, hd, Document.orIdentity_of_key? hk, hk]

theorem keyAt_of_given (h : Document.keyAt (s.given ds) i = some k) :
    Document.keyAt ds i = some k ∨
      i < ds.length ∧ Document.keyAt ds i = none ∧ k = s.spareKey i := by
  cases hd : ds[i]? with
  | none => simp [Document.keyAt, given, identified, hd] at h
  | some d =>
    simp only [Document.keyAt, given, identified, List.getElem?_mapIdx, hd, Option.map_some,
      Option.bind_some] at h ⊢
    cases hkey : d.key? with
    | some j =>
      rw [Document.orIdentity_of_key? hkey, hkey] at h
      exact Or.inl h
    | none =>
      rw [Document.key?_orIdentity_of_no_key? hkey] at h
      exact Or.inr ⟨(List.getElem?_eq_some_iff.mp hd).1, rfl, (Option.some.inj h).symm⟩

theorem Unused.takenAt_given (h : s.Unused ds) :
    s.collection.TakenAt (s.given ds) i k ↔ s.collection.TakenAt ds i k := by
  constructor
  · rintro ⟨hi, htaken⟩
    rcases keyAt_of_given hi with hown | ⟨hlt, hnone, rfl⟩
    · refine ⟨hown, htaken.imp_right ?_⟩
      rintro ⟨j, hj, hfront⟩
      rcases keyAt_of_given hfront with hfront | ⟨hlt, hnone, rfl⟩
      · exact ⟨j, hj, hfront⟩
      · exact absurd hi ((h j hlt hnone).2 i (Nat.ne_of_gt hj))
    · obtain ⟨hfree, hother⟩ := h i hlt hnone
      rcases htaken with hstored | ⟨j, hj, hfront⟩
      · exact absurd hfree hstored
      · exact absurd hfront (hother j (Nat.ne_of_lt hj))
  · rintro ⟨hi, htaken⟩
    exact ⟨keyAt_given hi, htaken.imp_right fun ⟨j, hj, hfront⟩ => ⟨j, hj, keyAt_given hfront⟩⟩

theorem Unused.firstTaken_given (h : s.Unused ds) (hfirst : s.collection.FirstTaken ds i k) :
    s.collection.FirstTaken (s.given ds) i k :=
  ⟨h.takenAt_given.mpr hfirst.taken, fun j hj k' htaken =>
    hfirst.first j hj k' (h.takenAt_given.mp htaken)⟩

/-! ## One by one -/

/-- Documents inserted by calls of their own come to what they come to as a batch. -/
theorem insertEach_eq (hs : s.InMemory) (ds : List Document) :
    (s.insertEach ds).1.collection = (s.collection.insertAll (s.given ds)).1 ∧
      (s.insertEach ds).2 = (s.collection.insertAll (s.given ds)).2 := by
  induction ds generalizing s with
  | nil => exact ⟨rfl, rfl⟩
  | cons d ds ih =>
    have hgiven : s.given (d :: ds) =
        d.orIdentity (s.supply s.issued) ::
          identified (fun i => s.supply (s.issued + 1 + i)) ds := by
      simp only [given, identified_cons, Nat.add_zero, Nat.add_assoc, Nat.add_comm 1]
    cases hd : s.collection.insert (d.orIdentity (s.supply s.issued)) with
    | error e =>
      simp [insertEach, answer_of_inMemory hs, effect, Store.insert, note, hgiven,
        Collection.insertAll, hd]
    | ok c =>
      have hrest := ih (hs.answer (.insert d))
      simp only [answer_of_inMemory hs, effect, Store.insert, note, hd, given] at hrest
      simpa only [insertEach, answer_of_inMemory hs, effect, Store.insert, note, hgiven,
        Collection.insertAll, hd] using hrest

/-- What a batch of inserts replies, and what it makes of the store `s`. -/
structure Filled (name : String) (s : Store) (ds : List Document) (s' : Store)
    (reply : Except Failure Unit) : Prop where
  whole : (∀ i k, ¬ s.collection.TakenAt ds i k) →
    reply = .ok () ∧ s'.collection.documents.Perm (s.collection.documents ++ s.given ds)
  /-- The documents in front of the first taken place are added, and nothing else. -/
  upTo : ∀ i k, s.collection.FirstTaken ds i k →
    reply = .error (.duplicateDocumentKey name k) ∧
      s'.collection.documents.Perm (s.collection.documents ++ (s.given ds).take i)
  kept : ∀ k d, s.at? k = some d → s'.at? k = some d

theorem Grown.filled (h : s.Grown name) (hunused : s.Unused ds) :
    Filled name s ds (s.answer (.insertAll ds)).1 (s.answer (.insertAll ds)).2 := by
  have hgiven : ∀ d ∈ s.given ds, ∃ k, d.key? = some k := keyed_identified _ ds
  obtain ⟨hafter, hreply⟩ := answers_insertAll h.inMemory ds
  constructor
  · intro hfree
    rw [hafter, hreply]
    exact h.keyed.insertAll_of_not_taken hgiven fun i k htaken =>
      hfree i k (hunused.takenAt_given.mp htaken)
  · intro i k hfirst
    rw [hafter, hreply, ← h.named]
    exact h.keyed.insertAll_of_firstTaken hgiven (hunused.firstTaken_given hfirst)
  · intro k d hstored
    rw [at?, hafter]
    exact Collection.get?_insertAll_of_stored hgiven hstored

/-- A batch of inserts into a store that was new once and has answered any calls since, which gives
unused identities to the documents without one. -/
theorem batch_stops_at_first_taken (name : String) (supply : Nat → String) (calls : List Call)
    (ds : List Document) (hunused : ((fresh name supply).afterCalls calls).Unused ds) :
    let s := (fresh name supply).afterCalls calls
    Filled name s ds (s.answer (.insertAll ds)).1 (s.answer (.insertAll ds)).2 ∧
      (s.insertEach ds).1.collection = (s.answer (.insertAll ds)).1.collection ∧
      (s.insertEach ds).2 = (s.answer (.insertAll ds)).2 := by
  intro s
  have hs : s.Grown name := grown_fresh name supply calls
  obtain ⟨hafter, hreply⟩ := answers_insertAll hs.inMemory ds
  obtain ⟨hcollection, hsame⟩ := insertEach_eq hs.inMemory ds
  exact ⟨hs.filled hunused, hcollection.trans hafter.symm, hsame.trans hreply.symm⟩

/-! A delivery to the store of two fruits. The second fruit has no name and becomes the fig; the
third one is a pear again, and the quince is left out. -/

def delivery : List Document :=
  [fruit "plum", Document.empty.insert "origin" (.text "Italy"), fruit "pear", fruit "quince"]

def stall : Store := (fresh "fruits" fun _ => "fig").afterCalls basket

theorem unused_delivery : stall.Unused delivery := by
  intro i hi hnone
  match i, hi, hnone with
  | 1, _, _ =>
    refine ⟨rfl, fun j hj => ?_⟩
    match j, hj with
    | 0, _ | 2, _ | 3, _ => decide
    | j + 4, _ => nofun
  | i + 4, hi, _ => exact absurd hi (by simp [delivery])

theorem pear_firstTaken : stall.collection.FirstTaken delivery 2 "\"pear\"" := by
  refine ⟨⟨rfl, Or.inl nofun⟩, fun j hj k' htaken => ?_⟩
  match j, hj, htaken with
  | 0, _, ⟨hkey, htaken⟩ =>
    obtain rfl : "\"plum\"" = k' := Option.some.inj hkey
    rcases htaken with hstored | ⟨j, hj, -⟩
    · exact hstored rfl
    · exact Nat.not_lt_zero j hj
  | 1, _, ⟨hkey, _⟩ => cases hkey
  | j + 2, hj, _ => omega

theorem delivery_stops_at_pear :
    stall.Unused delivery ∧
      (stall.answer (.insertAll delivery)).2 =
        .error (.duplicateDocumentKey "fruits" "\"pear\"") ∧
      (stall.answer (.insertAll delivery)).1.collection.documents.Perm
        (stall.collection.documents ++
          [fruit "plum", (Document.ofIdentity (.text "fig")).insert "origin" (.text "Italy")]) := by
  obtain ⟨hfilled, -⟩ :=
    batch_stops_at_first_taken "fruits" (fun _ => "fig") basket delivery unused_delivery
  exact ⟨unused_delivery, hfilled.upTo 2 "\"pear\"" pear_firstTaken⟩

end Store

end StoredObjects
