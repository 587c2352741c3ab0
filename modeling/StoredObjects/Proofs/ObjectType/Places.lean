import StoredObjects.Proofs.ObjectType.Registering

/-! # Places that are noted

An index notes the place of every type under its name and under its collection. As long as
declarations are taken in one after another, each note leads to the one type that has the name or
the collection, so that whoever follows it finds what a search among the types would find, and never
looks past their end.
-/

namespace StoredObjects

namespace Index

variable {types : List ObjectType} {t : ObjectType} {x : Index}

/-! ## Notes under one key -/

/-- The places of the types, each under its key. -/
def Notes (key : ObjectType → String) (types : List ObjectType) (notes : TextMap Nat) : Prop :=
  ∀ k place, notes.get? k = some place ↔ ∃ t, types[place]? = some t ∧ key t = k

section Notes

variable {key : ObjectType → String} {notes : TextMap Nat} {k : String}

theorem Notes.empty (key : ObjectType → String) : Notes key [] .empty := by
  intro k place
  simp

theorem Notes.snoc (h : Notes key types notes) (hfree : notes.get? (key t) = none) :
    Notes key (types ++ [t]) (notes.insert (key t) types.length) := by
  intro k place
  -- a type among the old ones is noted at its place, and the new one comes right behind them
  have hold : ∀ s, (types ++ [t])[place]? = some s →
      types[place]? = some s ∨ place = types.length ∧ s = t := by
    intro s hs
    rcases Nat.lt_trichotomy place types.length with hlt | heq | hlt
    · exact Or.inl (by rwa [List.getElem?_append_left hlt] at hs)
    · subst heq
      exact Or.inr ⟨rfl, by simpa using hs.symm⟩
    · have hend : (types ++ [t]).length ≤ place := by simpa [Nat.succ_le_iff] using hlt
      rw [List.getElem?_eq_none hend] at hs
      cases hs
  by_cases hk : k = key t
  · subst hk
    rw [TextMap.get?_insert_self]
    constructor
    · intro heq
      obtain rfl := Option.some.inj heq
      exact ⟨t, by simp, rfl⟩
    · rintro ⟨s, hs, hkey⟩
      rcases hold s hs with hs | ⟨rfl, -⟩
      · cases hfree.symm.trans ((h _ _).mpr ⟨s, hs, hkey⟩)
      · rfl
  · rw [TextMap.get?_insert_of_ne _ _ hk, h]
    constructor
    · rintro ⟨s, hs, hkey⟩
      have hlt := (List.getElem?_eq_some_iff.mp hs).1
      exact ⟨s, by rwa [List.getElem?_append_left hlt], hkey⟩
    · rintro ⟨s, hs, hkey⟩
      rcases hold s hs with hs | ⟨-, rfl⟩
      · exact ⟨s, hs, hkey⟩
      · exact absurd hkey.symm hk

theorem Notes.get?_eq_none (h : Notes key types notes) (hno : ∀ t ∈ types, key t ≠ k) :
    notes.get? k = none := by
  cases hk : notes.get? k with
  | none => rfl
  | some place =>
    obtain ⟨t, ht, hkey⟩ := (h k place).mp hk
    exact absurd hkey (hno t (List.mem_of_getElem? ht))

theorem Notes.follow (h : Notes key x.types notes) (k : String) :
    x.follow (notes.get? k) = .ok (x.types.find? fun t => key t == k) := by
  cases hfind : x.types.find? fun t => key t == k with
  | none =>
    have hno : ∀ t ∈ x.types, key t ≠ k := fun t ht heq =>
      List.find?_eq_none.mp hfind t ht (by simpa using heq)
    rw [h.get?_eq_none hno]
    rfl
  | some t =>
    obtain ⟨place, hplace⟩ := List.mem_iff_getElem?.mp (List.mem_of_find?_eq_some hfind)
    have hkey : key t = k := by simpa using List.find?_some hfind
    rw [(h k place).mpr ⟨t, hplace, hkey⟩]
    simp [Index.follow, typeAt, hplace, Except.map]

end Notes

/-! ## Both kinds of notes -/

structure Noted (x : Index) : Prop where
  byName : Notes ObjectType.name x.types x.byName
  byCollection : Notes ObjectType.collection x.types x.byCollection

theorem Noted.empty : Noted empty := ⟨.empty _, .empty _⟩

theorem Noted.find? (h : x.Noted) (name : String) :
    x.find? name = .ok (x.types.find? fun t => t.name == name) := h.byName.follow name

theorem Noted.byCollection? (h : x.Noted) (collection : String) :
    x.byCollection? collection = .ok (x.types.find? fun t => t.collection == collection) :=
  h.byCollection.follow collection

inductive Agrees : Except Halt Index → Except Failure (List ObjectType) → Prop where
  | noted {x : Index} (h : x.Noted) : Agrees (.ok x) (.ok x.types)
  | failed (e : Failure) : Agrees (.error (.failed e)) (.error e)

/-- Under a new name a declaration is taken in, unless its collection has an owner. -/
theorem Noted.register_of_free (h : x.Noted) (hfree : x.byName.get? t.name = none) :
    x.register t = match x.types.find? fun s => s.collection == t.collection with
      | some owner => .error (.failed (owner.collectionClash t))
      | none => .ok ⟨x.types ++ [t], x.byName.insert t.name x.types.length,
          x.byCollection.insert t.collection x.types.length⟩ := by
  have hfollow := Notes.follow (x := ⟨x.types, x.byName.insert t.name x.types.length,
    x.byCollection.insert t.collection x.types.length⟩) h.byCollection t.collection
  unfold Index.register
  simp only [hfree, Option.isSome_none, Bool.false_eq_true, if_false, hfollow]
  cases x.types.find? fun s => s.collection == t.collection <;> rfl

theorem Noted.register (h : x.Noted) (t : ObjectType) :
    Agrees (x.register t) (Registry.add x.types t) := by
  by_cases hany : x.types.any (fun s => s.name == t.name) = true
  · -- the name is noted
    obtain ⟨s, hs, hname⟩ := List.any_eq_true.mp hany
    obtain ⟨place, hplace⟩ := List.mem_iff_getElem?.mp hs
    have hnote := (h.byName _ place).mpr ⟨s, hplace, beq_iff_eq.mp hname⟩
    have hregister : x.register t = .error (.failed t.nameClash) := by
      simp [Index.register, hnote]
    have hadd : Registry.add x.types t = .error t.nameClash := by
      unfold Registry.add ObjectType.joins
      rw [if_pos hany]
      rfl
    rw [hregister, hadd]
    exact .failed _
  · have hfree : x.byName.get? t.name = none := h.byName.get?_eq_none fun s hs heq =>
      hany (List.any_eq_true.mpr ⟨s, hs, beq_iff_eq.mpr heq⟩)
    have hadd : Registry.add x.types t =
        match x.types.find? fun s => s.collection == t.collection with
        | some owner => .error (owner.collectionClash t)
        | none => .ok (x.types ++ [t]) := by
      unfold Registry.add ObjectType.joins
      rw [if_neg hany]
      cases x.types.find? fun s => s.collection == t.collection <;> rfl
    rw [h.register_of_free hfree, hadd]
    cases hfind : x.types.find? fun s => s.collection == t.collection with
    | some owner => exact .failed _
    | none =>
      have hnone : x.byCollection.get? t.collection = none :=
        h.byCollection.get?_eq_none fun s hs heq =>
          List.find?_eq_none.mp hfind s hs (beq_iff_eq.mpr heq)
      exact .noted ⟨h.byName.snoc hfree, h.byCollection.snoc hnone⟩

theorem Noted.foldlM (h : x.Noted) (types : List ObjectType) :
    Agrees (types.foldlM Index.register x) (types.foldlM Registry.add x.types) := by
  induction types generalizing x with
  | nil => exact .noted h
  | cons t types ih =>
    have hstep := h.register t
    rw [List.foldlM_cons, List.foldlM_cons]
    generalize x.register t = indexed at hstep ⊢
    generalize Registry.add x.types t = listed at hstep ⊢
    cases hstep with
    | noted hnext => exact ih hnext
    | failed e => exact .failed e

/-- The index of a list of declarations: it fails as the registry does, never by looking past the
end of the types, and otherwise finds what the registry finds. -/
structure Follows (types : List ObjectType) : Prop where
  failed : ∀ e, ofList types = .error (.failed e) ↔ Registry.ofList types = .error e
  inRange : ofList types ≠ .error .died
  found : ∀ x, ofList types = .ok x → ∃ r, Registry.ofList types = .ok r ∧ x.types = r.types ∧
    (∀ name, x.find? name = .ok (r.find? name)) ∧
    ∀ collection, x.byCollection? collection = .ok (r.byCollection? collection)

theorem follows (types : List ObjectType) : Follows types := by
  have hagrees : Agrees (ofList types) (types.foldlM Registry.add []) := Noted.empty.foldlM types
  have hlist := Registry.ofList_eq types
  generalize hindex : ofList types = indexed at hagrees
  generalize types.foldlM Registry.add [] = listed at hagrees hlist
  cases hagrees with
  | @noted x h =>
    change Registry.ofList types = .ok ⟨x.types⟩ at hlist
    refine ⟨fun e => ?_, ?_, fun y hy => ?_⟩
    · rw [hindex, hlist]
      exact ⟨nofun, nofun⟩
    · rw [hindex]
      nofun
    · obtain rfl := Except.ok.inj (hindex.symm.trans hy)
      exact ⟨⟨x.types⟩, hlist, rfl, h.find?, h.byCollection?⟩
  | failed e =>
    change Registry.ofList types = .error e at hlist
    refine ⟨fun e' => ?_, ?_, fun y hy => ?_⟩
    · rw [hindex, hlist]
      simp
    · rw [hindex]
      nofun
    · cases hindex.symm.trans hy

end Index

end StoredObjects
