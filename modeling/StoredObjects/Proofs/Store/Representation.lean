import StoredObjects.Proofs.Collection.Keyed
import StoredObjects.Proofs.Json.Separation
import StoredObjects.Store.Basic

/-! # How a store holds its documents

Whatever is asked of a store that was empty at first, and whichever calls fail, every document
stands under the key of its own identity. Since different identities have different keys, what is
found for an identity is the one stored document that has it.
-/

namespace StoredObjects

namespace Collection

variable {c c' : Collection} {d : Document}

/-! ## Writes keep every document under its key -/

theorem Keyed.filter (hc : c.Keyed) (p : String → Document → Bool) :
    Keyed { c with stored := c.stored.filter p } := by
  intro k d hd
  have hmem := (TextMap.mem_entries_iff _).mpr hd
  exact hc k d ((TextMap.mem_entries_iff _).mp (List.mem_filter.mp hmem).1)

theorem Keyed.of_insert (hc : c.Keyed) (h : c.insert d = .ok c') : c'.Keyed := by
  cases hk : d.key? with
  | none => simp [insert, keyFor, hk, bind, Except.bind] at h
  | some k =>
    rw [insert_of_key? hk] at h
    split at h
    · cases h
    · obtain rfl := Except.ok.inj h
      exact hc.put hk

theorem Keyed.insertAll (hc : c.Keyed) (ds : List Document) : (c.insertAll ds).1.Keyed := by
  induction ds generalizing c with
  | nil => exact hc
  | cons d ds ih =>
    unfold Collection.insertAll
    cases h : c.insert d with
    | error e => exact hc
    | ok b => exact ih (hc.of_insert h)

theorem Keyed.of_update (hc : c.Keyed) (h : c.update d = .ok c') : c'.Keyed := by
  cases hk : d.key? with
  | none =>
    rw [update_of_no_key? hk] at h
    cases h
  | some k =>
    rw [update_of_key? hk] at h
    obtain rfl := Except.ok.inj h
    exact hc.put hk

theorem Keyed.removeExact (hc : c.Keyed) (template : Document) :
    (c.removeExact template).Keyed := by
  unfold Collection.removeExact
  split
  · split
    · exact hc.drop _
    · exact hc
  · exact hc.filter _

theorem Keyed.of_replace (hc : c.Keyed) {old new : Document} (h : c.replace old new = .ok c') :
    c'.Keyed := by
  cases hk : new.key? with
  | none => simp [Collection.replace, keyFor, hk, bind, Except.bind] at h
  | some k =>
    simp only [Collection.replace, keyFor, hk, bind, Except.bind] at h
    split at h
    · obtain rfl := Except.ok.inj h
      exact hc.put hk
    · split at h
      · cases h
      · obtain rfl := Except.ok.inj h
        exact (hc.put hk).removeExact old

theorem Keyed.delete (hc : c.Keyed) (template : Document) : (c.delete template).Keyed := by
  unfold Collection.delete
  split
  · split
    · exact hc.drop _
    · exact hc
  · exact hc.removeExact template

/-! ## What that means for readers -/

/-- Documents stand under the keys of their identities, and are listed and found by them. -/
structure Orderly (c : Collection) : Prop where
  /-- Every entry is a document under its own key. -/
  keyed : ∀ entry ∈ c.stored.entries, entry.2.key? = some entry.1
  /-- The documents have identities, and are listed strictly ascending by their keys. -/
  ascending : ∃ identities : List Value, c.documents.map Document.identity? = identities.map some ∧
    (∀ v ∈ identities, v.isNull = false) ∧ (identities.map Value.compact).Pairwise (· < ·)
  /-- What is found for an identity is the stored document that has this identity. -/
  found : ∀ v d, c.find? v = some d ↔ d ∈ c.documents ∧ d.identity? = some v

theorem key?_eq_keyOf_iff {v : Value} :
    d.key? = some (Document.keyOf v) ↔ d.identity? = some v := by
  unfold Document.key?
  rw [Option.map_eq_some_iff]
  constructor
  · rintro ⟨w, hw, hkey⟩
    obtain rfl := Value.compact_injective hkey
    exact hw
  · exact fun hv => ⟨v, hv, rfl⟩

theorem exists_identities {entries : List (String × Document)}
    (h : ∀ entry ∈ entries, entry.2.key? = some entry.1) : ∃ identities : List Value,
      (entries.map Prod.snd).map Document.identity? = identities.map some ∧
        identities.map Value.compact = entries.map Prod.fst := by
  induction entries with
  | nil => exact ⟨[], rfl, rfl⟩
  | cons entry entries ih =>
    obtain ⟨v, hv, hkey⟩ := Option.map_eq_some_iff.mp (h entry List.mem_cons_self)
    obtain ⟨identities, hidentities, hkeys⟩ := ih fun e he => h e (List.mem_cons_of_mem _ he)
    refine ⟨v :: identities, ?_, ?_⟩
    · simp only [List.map_cons, hv, hidentities]
    · simp only [List.map_cons, hkeys]
      rw [← hkey]
      rfl

theorem Keyed.orderly (hc : c.Keyed) : c.Orderly := by
  have hentries : ∀ entry ∈ c.stored.entries, entry.2.key? = some entry.1 :=
    fun entry hentry => hc _ _ ((TextMap.mem_entries_iff _).mp hentry)
  refine ⟨hentries, ?_, fun v d => ?_⟩
  · obtain ⟨identities, hidentities, hkeys⟩ := exists_identities hentries
    refine ⟨identities, hidentities, fun v hv => ?_, ?_⟩
    · have hmem : some v ∈ c.documents.map Document.identity? := by
        unfold documents TextMap.values
        rw [hidentities]
        exact List.mem_map_of_mem hv
      obtain ⟨d, -, hd⟩ := List.mem_map.mp hmem
      exact Document.isNull_of_identity? hd
    · rw [hkeys, List.pairwise_map]
      exact c.stored.ascending
  · rw [find?, hc.get?_iff, key?_eq_keyOf_iff]

end Collection

namespace Store

variable {s : Store}

def afterCalls (s : Store) (calls : List Call) : Store :=
  calls.foldl (fun s c => (s.answer c).1) s

theorem keyed_settle {r : Except Failure Collection} (hs : s.collection.Keyed)
    (hr : ∀ c, r = .ok c → c.Keyed) : (s.settle r).1.collection.Keyed := by
  cases r with
  | ok c => exact hr c rfl
  | error e => exact hs

theorem keyed_effect (hs : s.collection.Keyed) (c : Call) : (s.effect c).1.collection.Keyed := by
  cases c with
  | insert d =>
    simp only [effect, Store.insert]
    split
    · exact hs.of_insert ‹_›
    · exact hs
  | insertAll ds => exact hs.insertAll _
  | update d => exact keyed_settle hs fun c hc => hs.of_update hc
  | replace old new => exact keyed_settle hs fun c hc => hs.of_replace hc
  | delete template => exact hs.delete template
  | _ => exact hs

theorem keyed_perform (hs : s.collection.Keyed) (c : Call) : (s.perform c).1.collection.Keyed := by
  unfold perform
  split
  · exact hs
  · exact keyed_effect (s := s.note c) hs c

theorem keyed_answer (hs : s.collection.Keyed) (c : Call) : (s.answer c).1.collection.Keyed := by
  cases c with
  | findShare share =>
    unfold answer
    split
    · exact keyed_perform hs _
    · exact keyed_perform hs .findAll
  | _ => exact keyed_perform hs _

theorem keyed_afterCalls (hs : s.collection.Keyed) (calls : List Call) :
    (s.afterCalls calls).collection.Keyed := by
  induction calls generalizing s with
  | nil => exact hs
  | cons c calls ih => exact ih (keyed_answer hs c)

/-- A store that starts empty stays orderly, whatever it is asked, whichever calls are due to fail
and whatever identities it hands out. -/
theorem orderly_afterCalls (s : Store) (name : String) (calls : List Call) :
    ((s.setCollection (.empty name)).afterCalls calls).collection.Orderly :=
  (keyed_afterCalls (Collection.keyed_empty name) calls).orderly

end Store

end StoredObjects
