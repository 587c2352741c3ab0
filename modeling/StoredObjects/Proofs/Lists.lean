import Mathlib.Algebra.BigOperators.Group.List.Basic
import Mathlib.Data.List.Forall2
import Mathlib.Data.List.Pairwise
import Mathlib.Tactic.Abel

/-! # Lists of which one element changes, and lists that are searched by keys -/

namespace StoredObjects

universe u v

variable {α : Type u} {β : Type v} {as : List α} {i : Nat} {a : α}

theorem set_of_getElem? (h : as[i]? = some a) : as.set i a = as := by
  obtain ⟨hlt, rfl⟩ := List.getElem?_eq_some_iff.mp h
  exact List.set_getElem_self hlt

theorem sum_map_set {M : Type v} [AddCommMonoid M] (g : α → M) (a' : α) (h : as[i]? = some a) :
    ((as.set i a').map g).sum + g a = (as.map g).sum + g a' := by
  induction as generalizing i with
  | nil => simp at h
  | cons b as ih =>
    cases i with
    | zero =>
      obtain rfl : b = a := by simpa using h
      simp only [List.set_cons_zero, List.map_cons, List.sum_cons]
      abel
    | succ i =>
      have hrest := ih (by simpa using h)
      simp only [List.set_cons_succ, List.map_cons, List.sum_cons, add_assoc, hrest]

theorem countP_set_add {p : α → Bool} (a' : α) (h : as[i]? = some a) :
    (as.set i a').countP p + (if p a then 1 else 0) = as.countP p + if p a' then 1 else 0 := by
  obtain ⟨hlt, rfl⟩ := List.getElem?_eq_some_iff.mp h
  rw [List.countP_set hlt]
  by_cases hp : p as[i] = true
  · have hpos : 0 < as.countP p := List.countP_pos_iff.mpr ⟨_, List.getElem_mem hlt, hp⟩
    simp only [hp, if_true]
    omega
  · simp only [hp, if_false, Bool.false_eq_true]
    omega

section Forall₂

variable {R : α → β → Prop} {bs : List β}

theorem forall₂_set (h : List.Forall₂ R as bs) (i : Nat) {a : α} {b : β} (hab : R a b) :
    List.Forall₂ R (as.set i a) (bs.set i b) := by
  induction h generalizing i with
  | nil => exact .nil
  | cons hhead htail ih =>
    cases i with
    | zero => exact .cons hab htail
    | succ i => exact .cons hhead (ih i)

theorem exists_of_forall₂ (h : List.Forall₂ R as bs) (hi : as[i]? = some a) :
    ∃ b, bs[i]? = some b ∧ R a b := by
  induction h generalizing i with
  | nil => simp at hi
  | cons hhead htail ih =>
    cases i with
    | zero =>
      obtain rfl := Option.some.inj hi
      exact ⟨_, rfl, hhead⟩
    | succ i => exact ih hi

theorem exists_mem_of_forall₂ (h : List.Forall₂ R as bs) (ha : a ∈ as) : ∃ b ∈ bs, R a b := by
  obtain ⟨i, hi⟩ := List.mem_iff_getElem?.mp ha
  obtain ⟨b, hb, hab⟩ := exists_of_forall₂ h hi
  exact ⟨b, List.mem_of_getElem? hb, hab⟩

/-- Two lists that were made of one list, element by element. -/
theorem forall₂_of_common {γ : Type v} {S : α → γ → Prop} {T : β → γ → Prop} {cs : List γ}
    (h : List.Forall₂ R as bs) (h' : List.Forall₂ S as cs)
    (hcommon : ∀ a ∈ as, ∀ b c, R a b → S a c → T b c) : List.Forall₂ T bs cs := by
  induction h generalizing cs with
  | nil =>
    cases h'
    exact .nil
  | cons hhead htail ih =>
    cases h' with
    | cons hhead' htail' =>
      exact .cons (hcommon _ List.mem_cons_self _ _ hhead hhead')
        (ih htail' fun a ha => hcommon a (List.mem_cons_of_mem _ ha))

end Forall₂

theorem find?_key_eq_some_iff [BEq β] [LawfulBEq β] {key : α → β}
    (h : as.Pairwise fun a b => key a ≠ key b) {k : β} :
    as.find? (fun a => key a == k) = some a ↔ a ∈ as ∧ key a = k := by
  constructor
  · exact fun hfind => ⟨List.mem_of_find?_eq_some hfind, by simpa using List.find?_some hfind⟩
  · rintro ⟨ha, rfl⟩
    cases hfind : as.find? fun b => key b == key a with
    | none =>
      have hno := List.find?_eq_none.mp hfind a ha
      simp at hno
    | some b =>
      have hb : b ∈ as := List.mem_of_find?_eq_some hfind
      have hkey : key b = key a := by simpa using List.find?_some hfind
      have hsymm : Std.Symm fun a b : α => key a ≠ key b := ⟨fun _ _ hne => hne.symm⟩
      have hba : b = a := by
        by_contra hne
        exact h.forall hb ha hne hkey
      rw [hba]

end StoredObjects
