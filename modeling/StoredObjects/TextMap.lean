/-!
Finite maps from text, listed in ascending order of their keys.

Order is by code point, which is also the order of the bytes of the text. The fields of a document,
the criteria of a query and the contents of a collection are such maps. The view of a map is
`get?`: every operation is described by what it does to look-ups, and `TextMap.ext_get?` says that
two maps with the same look-ups are equal.
-/

namespace StoredObjects

universe u v

variable {α : Type u} {β : Type v}

namespace Entries

def insert (k : String) (a : α) : List (String × α) → List (String × α)
  | [] => [(k, a)]
  | (k', a') :: rest =>
    if k < k' then (k, a) :: (k', a') :: rest
    else if k = k' then (k, a) :: rest
    else (k', a') :: insert k a rest

def get? (k : String) : List (String × α) → Option α
  | [] => none
  | (k', a) :: rest => if k = k' then some a else get? k rest

def Ascending (entries : List (String × α)) : Prop :=
  entries.Pairwise fun x y => x.1 < y.1

theorem lt_of_not_lt_of_ne {a b : String} (h : ¬ a < b) (hne : a ≠ b) : b < a := by
  rcases Decidable.em (b < a) with hlt | hlt
  · exact hlt
  · exact absurd (String.le_antisymm (String.not_lt.1 hlt) (String.not_lt.1 h)) hne

theorem mem_insert {k : String} {a : α} {x : String × α} {entries : List (String × α)}
    (h : x ∈ insert k a entries) : x = (k, a) ∨ x ∈ entries := by
  induction entries with
  | nil => simpa [insert] using h
  | cons head rest ih =>
    obtain ⟨k', a'⟩ := head
    unfold insert at h
    split at h
    · simpa using h
    · split at h
      · rcases List.mem_cons.1 h with h | h
        · exact .inl h
        · exact .inr (List.mem_cons_of_mem _ h)
      · rcases List.mem_cons.1 h with h | h
        · exact .inr (h ▸ List.mem_cons_self)
        · exact (ih h).imp id (List.mem_cons_of_mem _)

theorem ascending_insert (k : String) (a : α) {entries : List (String × α)}
    (h : Ascending entries) : Ascending (insert k a entries) := by
  induction entries with
  | nil => simp [insert, Ascending]
  | cons head rest ih =>
    obtain ⟨k', a'⟩ := head
    obtain ⟨hhead, hrest⟩ := List.pairwise_cons.1 h
    unfold insert
    split
    · rename_i hlt
      refine List.pairwise_cons.2 ⟨fun x hx => ?_, h⟩
      rcases List.mem_cons.1 hx with rfl | hx
      · exact hlt
      · exact String.lt_trans hlt (hhead x hx)
    · rename_i hlt
      split
      · rename_i heq
        subst heq
        exact List.pairwise_cons.2 ⟨hhead, hrest⟩
      · rename_i hne
        refine List.pairwise_cons.2 ⟨fun x hx => ?_, ih hrest⟩
        rcases mem_insert hx with rfl | hx
        · exact lt_of_not_lt_of_ne hlt hne
        · exact hhead x hx

theorem get?_insert (k k' : String) (a : α) (entries : List (String × α)) :
    get? k' (insert k a entries) = if k' = k then some a else get? k' entries := by
  induction entries with
  | nil => simp [insert, get?]
  | cons head rest ih =>
    obtain ⟨k'', a''⟩ := head
    unfold insert
    split
    · simp [get?]
    · split
      · rename_i heq
        subst heq
        by_cases h : k' = k <;> simp [get?, h]
      · rename_i hne
        by_cases h : k' = k''
        · subst h
          have : ¬ k' = k := fun e => hne e.symm
          simp [get?, this]
        · simp [get?, h, ih]

theorem get?_filter_ne (k k' : String) (entries : List (String × α)) :
    get? k' (entries.filter fun e => e.1 != k) = if k' = k then none else get? k' entries := by
  induction entries with
  | nil => simp [get?]
  | cons head rest ih =>
    obtain ⟨k'', a⟩ := head
    by_cases hk : k'' = k
    · subst hk
      rw [List.filter_cons_of_neg (by simp), ih]
      by_cases h : k' = k'' <;> simp [get?, h]
    · rw [List.filter_cons_of_pos (by simpa using hk)]
      by_cases h : k' = k''
      · subst h
        simp [get?, hk]
      · rw [get?, if_neg h, ih, get?, if_neg h]

theorem get?_eq_none_of_lt {k : String} {entries : List (String × α)}
    (h : ∀ x ∈ entries, k < x.1) : get? k entries = none := by
  induction entries with
  | nil => rfl
  | cons head rest ih =>
    obtain ⟨k', a⟩ := head
    have hlt : k < k' := h (k', a) List.mem_cons_self
    have hne : k ≠ k' := fun e => String.lt_irrefl k' (e ▸ hlt)
    simpa [get?, hne] using ih fun x hx => h x (List.mem_cons_of_mem _ hx)

theorem get?_eq_some_iff {k : String} {a : α} {entries : List (String × α)}
    (h : Ascending entries) : get? k entries = some a ↔ (k, a) ∈ entries := by
  induction entries with
  | nil => simp [get?]
  | cons head rest ih =>
    obtain ⟨k', a'⟩ := head
    obtain ⟨hhead, hrest⟩ := List.pairwise_cons.1 h
    by_cases hk : k = k'
    · subst hk
      have hnot : (k, a) ∉ rest := fun hm => String.lt_irrefl k (hhead _ hm)
      simp [get?, hnot, eq_comm]
    · simp [get?, hk, ih hrest]

theorem eq_of_get?_eq {xs ys : List (String × α)} (hx : Ascending xs) (hy : Ascending ys)
    (h : ∀ k, get? k xs = get? k ys) : xs = ys := by
  induction xs generalizing ys with
  | nil =>
    cases ys with
    | nil => rfl
    | cons y ys => simpa [get?] using h y.1
  | cons x xs ih =>
    obtain ⟨k, a⟩ := x
    obtain ⟨hxhead, hxrest⟩ := List.pairwise_cons.1 hx
    cases ys with
    | nil => simpa [get?] using h k
    | cons y ys =>
      obtain ⟨k', a'⟩ := y
      obtain ⟨hyhead, hyrest⟩ := List.pairwise_cons.1 hy
      have hkeys : k = k' := by
        rcases Decidable.em (k = k') with heq | hne
        · exact heq
        · rcases Decidable.em (k < k') with hlt | hlt
          · have hnone : get? k ((k', a') :: ys) = none :=
              get?_eq_none_of_lt fun z hz => by
                rcases List.mem_cons.1 hz with rfl | hz
                · exact hlt
                · exact String.lt_trans hlt (hyhead z hz)
            have := h k
            rw [hnone] at this
            simp [get?] at this
          · have hlt' := lt_of_not_lt_of_ne hlt hne
            have hnone : get? k' ((k, a) :: xs) = none :=
              get?_eq_none_of_lt fun z hz => by
                rcases List.mem_cons.1 hz with rfl | hz
                · exact hlt'
                · exact String.lt_trans hlt' (hxhead z hz)
            have := h k'
            rw [hnone] at this
            simp [get?] at this
      subst hkeys
      have ha : a = a' := by simpa [get?] using h k
      subst ha
      have hrest : xs = ys := ih hxrest hyrest fun j => by
        by_cases hj : j = k
        · subst hj
          rw [get?_eq_none_of_lt hxhead, get?_eq_none_of_lt hyhead]
        · simpa [get?, hj] using h j
      rw [hrest]

end Entries

structure TextMap (α : Type u) where
  entries : List (String × α)
  ascending : Entries.Ascending entries

namespace TextMap

protected theorem ext {m n : TextMap α} (h : m.entries = n.entries) : m = n := by
  cases m; cases n; cases h; rfl

def empty : TextMap α := ⟨[], .nil⟩

instance : EmptyCollection (TextMap α) := ⟨empty⟩
instance : Inhabited (TextMap α) := ⟨empty⟩

def get? (m : TextMap α) (k : String) : Option α := Entries.get? k m.entries

def contains (m : TextMap α) (k : String) : Bool := (m.get? k).isSome

def insert (m : TextMap α) (k : String) (a : α) : TextMap α :=
  ⟨Entries.insert k a m.entries, Entries.ascending_insert k a m.ascending⟩

def filter (p : String → α → Bool) (m : TextMap α) : TextMap α :=
  ⟨m.entries.filter fun e => p e.1 e.2, m.ascending.filter _⟩

def erase (m : TextMap α) (k : String) : TextMap α := m.filter fun k' _ => k' != k

def size (m : TextMap α) : Nat := m.entries.length

def isEmpty (m : TextMap α) : Bool := m.entries.isEmpty

def keys (m : TextMap α) : List String := m.entries.map Prod.fst

def values (m : TextMap α) : List α := m.entries.map Prod.snd

/-- The map of the listed entries; of two entries with one key the later counts. -/
def ofList (entries : List (String × α)) : TextMap α :=
  entries.foldl (fun m e => m.insert e.1 e.2) empty

@[simp] theorem get?_empty (k : String) : (empty : TextMap α).get? k = none := rfl

theorem get?_insert (m : TextMap α) (k k' : String) (a : α) :
    (m.insert k a).get? k' = if k' = k then some a else m.get? k' :=
  Entries.get?_insert k k' a m.entries

@[simp] theorem get?_insert_self (m : TextMap α) (k : String) (a : α) :
    (m.insert k a).get? k = some a := by simp [get?_insert]

theorem get?_insert_of_ne (m : TextMap α) {k k' : String} (a : α) (h : k' ≠ k) :
    (m.insert k a).get? k' = m.get? k' := by simp [get?_insert, h]

theorem get?_erase (m : TextMap α) (k k' : String) :
    (m.erase k).get? k' = if k' = k then none else m.get? k' :=
  Entries.get?_filter_ne k k' m.entries

@[simp] theorem get?_erase_self (m : TextMap α) (k : String) : (m.erase k).get? k = none := by
  simp [get?_erase]

theorem get?_erase_of_ne (m : TextMap α) {k k' : String} (h : k' ≠ k) :
    (m.erase k).get? k' = m.get? k' := by simp [get?_erase, h]

theorem mem_entries_iff (m : TextMap α) {k : String} {a : α} :
    (k, a) ∈ m.entries ↔ m.get? k = some a :=
  (Entries.get?_eq_some_iff m.ascending).symm

theorem ext_get? {m n : TextMap α} (h : ∀ k, m.get? k = n.get? k) : m = n :=
  TextMap.ext (Entries.eq_of_get?_eq m.ascending n.ascending h)

end TextMap

end StoredObjects
