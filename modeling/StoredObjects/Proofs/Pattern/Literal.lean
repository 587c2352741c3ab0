import Mathlib.Data.List.Infix
import StoredObjects.Pattern.Reader

/-! # Patterns without special characters

Such a pattern stands for its own characters, in either case. It occurs in a text exactly when some
part of the text folds to the same characters.
-/

namespace StoredObjects

def folded (cs : List Char) : List Nat := cs.map fun c => CaseFolding.fold c.toNat

def Mentions (phrase text : String) : Prop :=
  ∃ part, part <:+: text.toList ∧ folded part = folded phrase.toList

namespace Place

theorem mem_walk_iff {before cs : List Char} {index : Nat} {p : Place} :
    p ∈ walk before index cs ↔
      ∃ front, cs = front ++ p.after ∧ p.before = front.reverse ++ before ∧
        p.index = index + front.length := by
  obtain ⟨pbefore, pafter, pindex⟩ := p
  induction cs generalizing before index with
  | nil =>
    simp only [walk, List.mem_singleton, mk.injEq, List.nil_eq, List.append_eq_nil_iff]
    constructor
    · rintro ⟨rfl, rfl, rfl⟩
      exact ⟨[], ⟨rfl, rfl⟩, rfl, rfl⟩
    · rintro ⟨front, ⟨rfl, rfl⟩, rfl, rfl⟩
      exact ⟨rfl, rfl, rfl⟩
  | cons c cs ih =>
    simp only [walk, List.mem_cons, mk.injEq, ih]
    constructor
    · rintro (⟨rfl, rfl, rfl⟩ | ⟨front, rfl, rfl, rfl⟩)
      · exact ⟨[], rfl, rfl, rfl⟩
      · exact ⟨c :: front, rfl, by simp, by simp; omega⟩
    · rintro ⟨front, hcs, rfl, rfl⟩
      cases front with
      | nil => exact Or.inl ⟨rfl, hcs.symm, rfl⟩
      | cons d front =>
        obtain ⟨rfl, rfl⟩ := List.cons_eq_cons.mp hcs
        exact Or.inr ⟨front, rfl, by simp, by simp; omega⟩

theorem exists_mem_all_iff {cs after : List Char} :
    (∃ p ∈ all cs, p.after = after) ↔ after <:+ cs := by
  constructor
  · rintro ⟨p, hp, rfl⟩
    obtain ⟨front, hfront, -⟩ := mem_walk_iff.mp hp
    exact ⟨front, hfront.symm⟩
  · rintro ⟨front, rfl⟩
    exact ⟨⟨front.reverse ++ [], after, 0 + front.length⟩, mem_walk_iff.mpr ⟨front, rfl, rfl, rfl⟩,
      rfl⟩

end Place

namespace Pattern

def literal (cs : List Char) : Pattern := inOrder (cs.map fun c => .char (.caseless c.toNat))

theorem reach_inOrder_cons (p : Pattern) (ps : List Pattern) (places : List Place) :
    (inOrder (p :: ps)).reach places = (inOrder ps).reach (p.reach places) := by
  cases ps <;> rfl

theorem step?_caseless_iff {c : Char} {p q : Place} :
    Place.step? (.caseless c.toNat) p = some q ↔
      ∃ d rest, p.after = d :: rest ∧ CaseFolding.fold d.toNat = CaseFolding.fold c.toNat ∧
        q = ⟨d :: p.before, rest, p.index + 1⟩ := by
  obtain ⟨before, after, index⟩ := p
  cases after with
  | nil => simp [Place.step?]
  | cons d rest =>
    simp only [Place.step?, CharSet.contains, beq_iff_eq]
    constructor
    · intro h
      by_cases hd : CaseFolding.fold d.toNat = CaseFolding.fold c.toNat
      · rw [if_pos hd] at h
        exact ⟨d, rest, rfl, hd, (Option.some.inj h).symm⟩
      · rw [if_neg hd] at h
        cases h
    · rintro ⟨d', rest', hafter, hd, rfl⟩
      obtain ⟨rfl, rfl⟩ := List.cons_eq_cons.mp hafter
      exact if_pos hd

theorem exists_mem_reach_literal_iff {cs : List Char} {places : List Place} :
    (literal cs).reach places ≠ [] ↔
      ∃ p ∈ places, ∃ part, part <+: p.after ∧ folded part = folded cs := by
  induction cs generalizing places with
  | nil =>
    constructor
    · intro hne
      obtain ⟨p, hp⟩ := List.exists_mem_of_ne_nil _ hne
      exact ⟨p, hp, [], List.nil_prefix, rfl⟩
    · rintro ⟨p, hp, -⟩
      exact List.ne_nil_of_mem hp
  | cons c cs ih =>
    have hstep : (literal (c :: cs)).reach places =
        (literal cs).reach (places.filterMap (Place.step? (.caseless c.toNat))) :=
      reach_inOrder_cons _ _ _
    rw [hstep, ih]
    constructor
    · rintro ⟨q, hq, part, hpart, hfold⟩
      obtain ⟨p, hp, hpq⟩ := List.mem_filterMap.mp hq
      obtain ⟨d, rest, hafter, hd, rfl⟩ := step?_caseless_iff.mp hpq
      refine ⟨p, hp, d :: part, ?_, ?_⟩
      · rw [hafter]
        exact List.cons_prefix_cons.mpr ⟨rfl, hpart⟩
      · simp [folded, hd] at hfold ⊢
        exact hfold
    · rintro ⟨p, hp, part, hpart, hfold⟩
      cases part with
      | nil => simp [folded] at hfold
      | cons d part =>
        obtain ⟨rest, hrest⟩ := hpart
        obtain ⟨hd, hfold⟩ := List.cons_eq_cons.mp hfold
        refine ⟨⟨d :: p.before, part ++ rest, p.index + 1⟩, ?_, part, ⟨rest, rfl⟩, hfold⟩
        exact List.mem_filterMap.mpr ⟨p, hp, step?_caseless_iff.mpr ⟨d, _, hrest.symm, hd, rfl⟩⟩

theorem occursIn_literal_iff (phrase text : String) :
    (literal phrase.toList).occursIn text = true ↔ Mentions phrase text := by
  have hempty : (literal phrase.toList).occursIn text = true ↔
      (literal phrase.toList).reach (Place.all text.toList) ≠ [] := by
    simp [occursIn]
  rw [hempty, exists_mem_reach_literal_iff]
  constructor
  · rintro ⟨p, hp, part, hpart, hfold⟩
    have hsuffix := Place.exists_mem_all_iff.mp ⟨p, hp, rfl⟩
    exact ⟨part, hpart.isInfix.trans hsuffix.isInfix, hfold⟩
  · rintro ⟨part, ⟨front, back, htext⟩, hfold⟩
    obtain ⟨p, hp, hafter⟩ := Place.exists_mem_all_iff.mpr
      (show part ++ back <:+ text.toList from ⟨front, by simpa using htext⟩)
    exact ⟨p, hp, part, hafter ▸ List.prefix_append part back, hfold⟩

end Pattern

instance (phrase text : String) : Decidable (Mentions phrase text) :=
  decidable_of_iff _ (Pattern.occursIn_literal_iff phrase text)

end StoredObjects
