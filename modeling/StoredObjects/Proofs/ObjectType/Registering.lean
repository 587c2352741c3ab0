import Mathlib.Data.List.Induction
import StoredObjects.ObjectType.Index
import StoredObjects.Proofs.Lists

/-! # Declarations that can stand together

Declarations are registered when no two of them have one name and no two have one collection. The
first that repeats one of an earlier declaration is reported, its name before its collection.
-/

namespace StoredObjects

/-! ## Joining -/

namespace ObjectType

variable {earlier : List ObjectType} {s t : ObjectType} {e : Failure}

def Apart (s t : ObjectType) : Prop := s.name ≠ t.name ∧ s.collection ≠ t.collection

/-- The report on a declaration that repeats an earlier one: that of its name, or else that of its
collection with the earlier owner. -/
inductive Clashes (earlier : List ObjectType) (t : ObjectType) : Failure → Prop where
  | name {s : ObjectType} (hs : s ∈ earlier) (hname : s.name = t.name) :
      Clashes earlier t t.nameClash
  | collection {owner : ObjectType} (hname : ∀ s ∈ earlier, s.name ≠ t.name)
      (howner : owner ∈ earlier) (hcollection : owner.collection = t.collection) :
      Clashes earlier t (owner.collectionClash t)

inductive Joins (earlier : List ObjectType) (t : ObjectType) : Except Failure Unit → Prop where
  | apart (h : ∀ s ∈ earlier, s.Apart t) : Joins earlier t (.ok ())
  | clashes {e : Failure} (h : Clashes earlier t e) : Joins earlier t (.error e)

theorem joins_joins (earlier : List ObjectType) (t : ObjectType) :
    Joins earlier t (t.joins earlier) := by
  unfold joins
  split
  · rename_i hany
    obtain ⟨s, hs, hname⟩ := List.any_eq_true.mp hany
    exact .clashes (.name hs (by simpa using hname))
  · rename_i hnone
    have hname : ∀ s ∈ earlier, s.name ≠ t.name := fun s hs heq =>
      hnone (List.any_eq_true.mpr ⟨s, hs, by simpa using heq⟩)
    split
    · rename_i owner howner
      exact .clashes (.collection hname (List.mem_of_find?_eq_some howner)
        (by simpa using List.find?_some howner))
    · rename_i hfree
      refine .apart fun s hs => ⟨hname s hs, fun heq => ?_⟩
      exact absurd (List.find?_eq_none.mp hfree s hs) (by simpa using heq)

theorem Clashes.not_apart (h : Clashes earlier t e) : ¬ ∀ s ∈ earlier, s.Apart t := by
  cases h with
  | name hs hname => exact fun hall => (hall _ hs).1 hname
  | collection _ howner hcollection => exact fun hall => (hall _ howner).2 hcollection

/-- Among declarations that stand together one collection has one owner. -/
theorem Clashes.unique (hapart : earlier.Pairwise Apart) {e' : Failure} (h : Clashes earlier t e)
    (h' : Clashes earlier t e') : e = e' := by
  cases h with
  | name hs hname =>
    cases h' with
    | name => rfl
    | collection hno => exact absurd hname (hno _ hs)
  | @collection owner hno howner hcollection =>
    cases h' with
    | name hs hname => exact absurd hname (hno _ hs)
    | @collection owner' _ howner' hcollection' =>
      have hkeys := hapart.imp And.right
      have hfind := (find?_key_eq_some_iff hkeys).mpr ⟨howner, hcollection⟩
      have hfind' := (find?_key_eq_some_iff hkeys).mpr ⟨howner', hcollection'⟩
      rw [Option.some.inj (hfind.symm.trans hfind')]

theorem joins_eq_ok_iff : t.joins earlier = .ok () ↔ ∀ s ∈ earlier, s.Apart t := by
  have hjoins := joins_joins earlier t
  constructor
  · intro h
    rw [h] at hjoins
    cases hjoins with
    | apart hapart => exact hapart
  · intro h
    cases hresult : t.joins earlier with
    | ok u => rfl
    | error e =>
      rw [hresult] at hjoins
      cases hjoins with
      | clashes hclashes => exact absurd h hclashes.not_apart

theorem joins_eq_error_iff (hapart : earlier.Pairwise Apart) :
    t.joins earlier = .error e ↔ Clashes earlier t e := by
  have hjoins := joins_joins earlier t
  constructor
  · intro h
    rw [h] at hjoins
    cases hjoins with
    | clashes hclashes => exact hclashes
  · intro h
    cases hresult : t.joins earlier with
    | ok u => exact absurd (joins_eq_ok_iff.mp hresult) h.not_apart
    | error e' =>
      rw [hresult] at hjoins
      cases hjoins with
      | clashes hclashes => rw [hclashes.unique hapart h]

end ObjectType

/-! ## Registering -/

namespace Registry

open ObjectType (Apart Clashes)

variable {types earlier later : List ObjectType} {t : ObjectType} {r : Registry} {e : Failure}

def add (earlier : List ObjectType) (t : ObjectType) : Except Failure (List ObjectType) :=
  (t.joins earlier).map fun _ => earlier ++ [t]

theorem ofList_eq (types : List ObjectType) :
    ofList types = (types.foldlM add []).map Registry.mk := rfl

theorem foldlM_add_of_pairwise (h : (earlier ++ types).Pairwise Apart) :
    types.foldlM add earlier = .ok (earlier ++ types) := by
  induction types generalizing earlier with
  | nil => simp [pure, Except.pure]
  | cons t types ih =>
    have hjoins : t.joins earlier = .ok () :=
      ObjectType.joins_eq_ok_iff.mpr fun s hs =>
        (List.pairwise_append.mp h).2.2 s hs t List.mem_cons_self
    have hadd : add earlier t = .ok (earlier ++ [t]) := by simp [add, hjoins, Except.map]
    have hnext : (earlier ++ [t] ++ types).Pairwise Apart := by simpa using h
    rw [List.foldlM_cons, hadd]
    exact (ih hnext).trans (by simp)

theorem ofList_of_pairwise (h : types.Pairwise Apart) : ofList types = .ok ⟨types⟩ := by
  have hfold : types.foldlM add [] = .ok ([] ++ types) := foldlM_add_of_pairwise h
  rw [ofList_eq, hfold]
  rfl

theorem ofList_of_clashes (hapart : earlier.Pairwise Apart) (h : Clashes earlier t e) :
    ofList (earlier ++ t :: later) = .error e := by
  have hfold : earlier.foldlM add [] = .ok ([] ++ earlier) := foldlM_add_of_pairwise hapart
  have hadd : add earlier t = .error e := by
    simp [add, (ObjectType.joins_eq_error_iff hapart).mpr h, Except.map]
  rw [ofList_eq, List.foldlM_append, hfold]
  change Except.map Registry.mk ((t :: later).foldlM add earlier) = _
  rw [List.foldlM_cons, hadd]
  rfl

theorem pairwise_or_clashes (types : List ObjectType) : types.Pairwise Apart ∨
    ∃ earlier t later e, types = earlier ++ t :: later ∧ earlier.Pairwise Apart ∧
      Clashes earlier t e := by
  induction types using List.reverseRecOn with
  | nil => exact Or.inl .nil
  | append_singleton types t ih =>
    rcases ih with hapart | ⟨earlier, u, later, e, rfl, hapart, hclashes⟩
    · have hjoins := ObjectType.joins_joins types t
      cases hresult : t.joins types with
      | ok u =>
        have hall := ObjectType.joins_eq_ok_iff.mp hresult
        exact Or.inl (List.pairwise_append.mpr ⟨hapart, List.pairwise_singleton _ _,
          fun s hs u hu => List.mem_singleton.mp hu ▸ hall s hs⟩)
      | error e =>
        exact Or.inr ⟨types, t, [], e, rfl, hapart,
          (ObjectType.joins_eq_error_iff hapart).mp hresult⟩
    · exact Or.inr ⟨earlier, u, later ++ [t], e, by simp, hapart, hclashes⟩

theorem ofList_eq_ok_iff : ofList types = .ok r ↔ types.Pairwise Apart ∧ r = ⟨types⟩ := by
  constructor
  · intro h
    rcases pairwise_or_clashes types with hapart | ⟨earlier, t, later, e, rfl, hapart, hclashes⟩
    · exact ⟨hapart, Except.ok.inj (h.symm.trans (ofList_of_pairwise hapart))⟩
    · cases h.symm.trans (ofList_of_clashes hapart hclashes)
  · rintro ⟨hapart, rfl⟩
    exact ofList_of_pairwise hapart

theorem ofList_eq_error_iff : ofList types = .error e ↔ ∃ earlier t later,
    types = earlier ++ t :: later ∧ earlier.Pairwise Apart ∧ Clashes earlier t e := by
  constructor
  · intro h
    rcases pairwise_or_clashes types with hapart | ⟨earlier, t, later, e', rfl, hapart, hclashes⟩
    · cases h.symm.trans (ofList_of_pairwise hapart)
    · obtain rfl := Except.error.inj (h.symm.trans (ofList_of_clashes hapart hclashes))
      exact ⟨earlier, t, later, rfl, hapart, hclashes⟩
  · rintro ⟨earlier, t, later, rfl, hapart, hclashes⟩
    exact ofList_of_clashes hapart hclashes

theorem pairwise_apart_iff : types.Pairwise Apart ↔
    (types.map ObjectType.name).Nodup ∧ (types.map ObjectType.collection).Nodup := by
  constructor
  · exact fun h => ⟨List.pairwise_map.mpr (h.imp And.left), List.pairwise_map.mpr (h.imp And.right)⟩
  · exact fun h => (List.pairwise_map.mp h.1).and (List.pairwise_map.mp h.2)

end Registry

end StoredObjects
