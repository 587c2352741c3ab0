import StoredObjects.Proofs.Json.Sameness
import StoredObjects.Proofs.Store.Contents
import StoredObjects.Proofs.Store.Representation

/-! # Replacements and removals by key

A store that was new once and has answered any calls since is a map from keys to documents. A
replacement either changes nothing and says why, or writes the new form under its key, and then the
old form goes if its key is another one and it is still stored as it was. A removal takes away the
document under the key of its template, or nothing. All other documents stay.
-/

namespace StoredObjects

theorem Document.not_same_of_key? {template d : Document} {k : String}
    (htemplate : template.identity? = none) (hd : d.key? = some k) : template.same d = false := by
  rw [Bool.eq_false_iff]
  intro hsame
  have hplain := identity?_of_same hsame
  obtain ⟨v, hv, -⟩ := Option.map_eq_some_iff.mp hd
  rw [htemplate, hv] at hplain
  cases hplain

namespace Collection

variable {c c' : Collection} {d old new template : Document} {k : String}

/-! ## Exact removals -/

theorem Keyed.removeExact_of_no_identity (hc : c.Keyed) (h : template.identity? = none) :
    c.removeExact template = c := by
  have hkey : template.key? = none := Option.map_eq_none_iff.mpr h
  -- every stored document has an identity, so that the search through all of them finds none
  have hall : (c.stored.filter fun _ d => !template.same d) = c.stored := by
    apply TextMap.ext
    apply List.filter_eq_self.mpr
    intro entry hentry
    have hd := hc _ _ ((TextMap.mem_entries_iff _).mp hentry)
    simp [Document.not_same_of_key? h hd]
  simp only [Collection.removeExact, hkey, hall]

theorem removeExact_of_key? (hk : template.key? = some k) :
    c.removeExact template =
      if (c.stored.get? k).any template.same then c.drop k else c := by
  simp only [removeExact, hk]

theorem Keyed.get?_removeExact (hc : c.Keyed) (template : Document) (j : String) :
    (c.removeExact template).stored.get? j =
      if template.key? = some j ∧ (c.stored.get? j).any template.same then none
      else c.stored.get? j := by
  cases hkey : template.key? with
  | none => simp [hc.removeExact_of_no_identity (Option.map_eq_none_iff.mp hkey)]
  | some k =>
    rw [removeExact_of_key? hkey]
    by_cases hj : k = j
    · subst hj
      by_cases hsame : (c.stored.get? k).any template.same = true <;> simp [hsame]
    · by_cases hsame : (c.stored.get? k).any template.same = true <;>
        simp [hsame, hj, TextMap.get?_erase_of_ne _ (Ne.symm hj)]

theorem Keyed.replace_moving (hc : c.Keyed) (hn : new.key? = some k) (ho : old.key? ≠ some k)
    (hfree : c.stored.get? k = none) :
    ∃ c', c.replace old new = .ok c' ∧ ∀ j, c'.stored.get? j =
      if j = k then some new
      else if old.key? = some j ∧ (c.stored.get? j).any old.same then none
      else c.stored.get? j := by
  refine ⟨(c.put k new).removeExact old, ?_, fun j => ?_⟩
  · simp only [Collection.replace, keyFor, hn, bind, Except.bind, ho, if_false, TextMap.contains,
      hfree, Option.isSome_none, Bool.false_eq_true]
  · rw [(hc.put hn).get?_removeExact, stored_put, TextMap.get?_insert]
    by_cases hj : j = k
    · subst hj
      simp [ho]
    · simp [hj]

/-! ## Removals -/

/-- A removal finds nothing to remove, or removes what is under the key of its template. -/
theorem Keyed.delete_cases (hc : c.Keyed) (template : Document) :
    (c.delete template = c ∧ ∀ k, template.key? = some k →
      template.isIdentityOnly = false ∧ (c.stored.get? k).any template.same = false) ∨
    ∃ k, template.key? = some k ∧ c.delete template = c.drop k ∧
      (template.isIdentityOnly = true ∨ (c.stored.get? k).any template.same = true) := by
  cases hkey : template.key? with
  | none =>
    have hidentity : template.identity? = none := Option.map_eq_none_iff.mp hkey
    have hwhole : template.isIdentityOnly = false := by
      simp [Document.isIdentityOnly, hidentity]
    refine Or.inl ⟨?_, fun k hk => by cases hk⟩
    simp only [Collection.delete, hwhole, Bool.false_eq_true, if_false,
      hc.removeExact_of_no_identity hidentity]
  | some k =>
    cases hwhole : template.isIdentityOnly with
    | true =>
      refine Or.inr ⟨k, rfl, ?_, Or.inl rfl⟩
      simp only [Collection.delete, hwhole, if_true, hkey]
    | false =>
      have hdelete : c.delete template = c.removeExact template := by
        simp only [Collection.delete, hwhole, Bool.false_eq_true, if_false]
      rw [hdelete, removeExact_of_key? hkey]
      cases hsame : (c.stored.get? k).any template.same with
      | true => exact Or.inr ⟨k, rfl, rfl, Or.inr hsame⟩
      | false =>
        refine Or.inl ⟨rfl, fun j hj => ⟨rfl, ?_⟩⟩
        obtain rfl := Option.some.inj hj
        exact hsame

end Collection

namespace Store

/-! ## Stores that were new once -/

def fresh (name : String) (supply : Nat → String) : Store := { collection := .empty name, supply }

variable {s s' : Store} {name : String} {old new template : Document} {reply : Except Failure Unit}

theorem name_answer (hs : s.InMemory) (c : Call) :
    (s.answer c).1.collection.name = s.collection.name := by
  have hsettle : ∀ r, (∀ c', r = .ok c' → c'.name = s.collection.name) →
      ((s.note c).settle r).1.collection.name = s.collection.name := by
    intro r hr
    cases r with
    | ok c' => exact hr c' rfl
    | error e => rfl
  rw [answer_of_inMemory hs]
  cases c with
  | insert d =>
    simp only [effect, Store.insert]
    split
    · exact Collection.name_of_insert ‹_›
    · rfl
  | insertAll ds => exact Collection.name_insertAll _ _
  | update d => exact hsettle _ fun c' h => Collection.name_of_update h
  | replace old new => exact hsettle _ fun c' h => Collection.name_of_replace h
  | delete template => exact Collection.name_delete _ template
  | _ => rfl

/-- What is known of a store in memory that was new once, whatever it has been asked since. -/
structure Grown (name : String) (s : Store) : Prop where
  inMemory : s.InMemory
  keyed : s.collection.Keyed
  named : s.collection.name = name

theorem Grown.afterCalls (h : s.Grown name) (calls : List Call) :
    (s.afterCalls calls).Grown name := by
  induction calls generalizing s with
  | nil => exact h
  | cons c calls ih =>
    exact ih ⟨h.inMemory.answer c, keyed_answer h.keyed c,
      (name_answer h.inMemory c).trans h.named⟩

theorem grown_fresh (name : String) (supply : Nat → String) (calls : List Call) :
    ((fresh name supply).afterCalls calls).Grown name := by
  have hnew : (fresh name supply).Grown name :=
    ⟨⟨rfl, rfl, rfl⟩, Collection.keyed_empty name, rfl⟩
  exact hnew.afterCalls calls

def at? (s : Store) (k : String) : Option Document := s.collection.stored.get? k

/-- What a replacement replies, and what it makes of the store `s`. -/
structure Replaced (name : String) (s : Store) (old new : Document) (s' : Store)
    (reply : Except Failure Unit) : Prop where
  nameless : new.identity? = none →
    reply = .error (.illegalArgument s!"document without '_id' cannot be written to '{name}'") ∧
      s'.collection = s.collection
  taken : ∀ k, new.key? = some k → old.key? ≠ some k → s.at? k ≠ none →
    reply = .error (.duplicateDocumentKey name k) ∧ s'.collection = s.collection
  /-- Under the key of the old form the new form is written, whatever is stored there. -/
  overwritten : ∀ k, new.key? = some k → old.key? = some k →
    reply = .ok () ∧ ∀ j, s'.at? j = if j = k then some new else s.at? j
  moved : ∀ k, new.key? = some k → old.key? ≠ some k → s.at? k = none →
    reply = .ok () ∧ ∀ j, s'.at? j =
      if j = k then some new
      else if old.key? = some j ∧ (s.at? j).any old.same then none
      else s.at? j

/-- What a removal replies, and what it makes of the store `s`. -/
structure Removed (s : Store) (template : Document) (s' : Store) (reply : Except Failure Unit) :
    Prop where
  done : reply = .ok ()
  left : ∀ j, s'.at? j =
    if template.key? = some j ∧ (template.isIdentityOnly ∨ (s.at? j).any template.same) then none
    else s.at? j
  atMostOne : ∃ gone : Option Document,
    s.collection.documents.Perm (gone.toList ++ s'.collection.documents)
  nameless : template.identity? = none → s'.collection = s.collection

theorem Grown.replaced (h : s.Grown name) (old new : Document) :
    Replaced name s old new (s.answer (.replace old new)).1 (s.answer (.replace old new)).2 := by
  obtain ⟨hafter, hreply⟩ := answers_replace h.inMemory old new
  constructor
  · intro hn
    have hkey : new.key? = none := Option.map_eq_none_iff.mpr hn
    simp only [Collection.replace, Collection.keyFor, hkey, h.named] at hafter hreply
    exact ⟨hreply, hafter⟩
  · intro k hn ho htaken
    rw [Collection.replace_of_taken hn ho htaken] at hafter hreply
    exact ⟨h.named ▸ hreply, hafter⟩
  · intro k hn ho
    rw [Collection.replace_of_key?_eq ho hn] at hafter hreply
    refine ⟨hreply, fun j => ?_⟩
    rw [at?, hafter]
    exact TextMap.get?_insert s.collection.stored k j new
  · intro k hn ho hfree
    obtain ⟨c', hok, hc'⟩ := h.keyed.replace_moving hn ho hfree
    rw [hok] at hafter hreply
    refine ⟨hreply, fun j => ?_⟩
    rw [at?, hafter]
    exact hc' j

theorem Grown.removed (h : s.Grown name) (template : Document) :
    Removed s template (s.answer (.delete template)).1 (s.answer (.delete template)).2 := by
  obtain ⟨hafter, hreply⟩ := answers_deleteLike h.inMemory template
  rcases h.keyed.delete_cases template with ⟨hdelete, hnothing⟩ | ⟨k, hk, hdelete, hfound⟩
  · rw [hdelete] at hafter
    refine ⟨hreply, fun j => ?_, ⟨none, hafter ▸ List.Perm.refl _⟩, fun _ => hafter⟩
    have hkept : ¬ (template.key? = some j ∧
        (template.isIdentityOnly ∨ (s.at? j).any template.same)) := by
      rintro ⟨hj, hfound⟩
      obtain ⟨hwhole, hsame⟩ := hnothing j hj
      simp [hwhole, at?, hsame] at hfound
    rw [if_neg hkept, at?, hafter, at?]
  · rw [hdelete] at hafter
    refine ⟨hreply, fun j => ?_, ⟨s.at? k, ?_⟩, fun hidentity => ?_⟩
    · rw [at?, hafter, Collection.stored_drop, TextMap.get?_erase, hk]
      by_cases hj : j = k
      · subst hj
        simp [at?, hfound]
      · simp [at?, hj, Ne.symm hj]
    · rw [hafter]
      exact h.keyed.documents_drop k
    · simp [Document.key?, hidentity] at hk

/-- Replacements and removals of a store that was new once and has answered any calls since, in
terms of what is stored under each key. -/
theorem replaced_and_removed (name : String) (supply : Nat → String) (calls : List Call) :
    let s := (fresh name supply).afterCalls calls
    (∀ old new, Replaced name s old new (s.answer (.replace old new)).1
      (s.answer (.replace old new)).2) ∧
    ∀ template, Removed s template (s.answer (.delete template)).1
      (s.answer (.delete template)).2 := by
  intro s
  have hs : s.Grown name := grown_fresh name supply calls
  exact ⟨hs.replaced, hs.removed⟩

/-! Two fruits. The apple cannot become the pear, but it can become the plum. -/

def fruit (name : String) : Document :=
  (Document.ofIdentity (.text name)).insert "origin" (.text "Spain")

def basket : List Call := [.insertAll [fruit "apple", fruit "pear"]]

theorem fruits_exchanged :
    let s := (fresh "fruits" fun _ => "fig").afterCalls basket
    let moved := (s.answer (.replace (fruit "apple") (fruit "plum"))).1
    (s.answer (.replace (fruit "apple") (fruit "pear"))).2 =
        .error (.duplicateDocumentKey "fruits" "\"pear\"") ∧
      moved.at? "\"apple\"" = none ∧ moved.at? "\"plum\"" = some (fruit "plum") ∧
      (s.answer (.delete (.ofIdentity (.text "pear")))).1.at? "\"pear\"" = none ∧
      (s.answer (.delete .empty)).1.collection = s.collection := by
  obtain ⟨hreplaced, hremoved⟩ := replaced_and_removed "fruits" (fun _ => "fig") basket
  have hmoved := ((hreplaced (fruit "apple") (fruit "plum")).moved "\"plum\"" rfl (by decide) rfl).2
  refine ⟨?_, hmoved "\"apple\"", hmoved "\"plum\"", (hremoved _).left "\"pear\"", ?_⟩
  · exact ((hreplaced _ _).taken "\"pear\"" rfl (by decide) nofun).1
  · exact (hremoved .empty).nameless rfl

end Store

end StoredObjects
