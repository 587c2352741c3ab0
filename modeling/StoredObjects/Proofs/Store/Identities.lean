import StoredObjects.ObjectType.Basic
import StoredObjects.Proofs.Store.Exchange

/-! # Identities that compare equal

Stores tell identities apart by their compact texts, and all else compares values. The two notions
differ on values that differ in nothing but the signs of zeros. Wherever no such two values meet,
identities that compare equal are one identity; where they meet, a store keeps two documents, does
not find one by the other, and takes the one for a change of the other.
-/

namespace StoredObjects

/-- The values compare equal and are spelled differently. -/
def Value.Splits (v w : Value) : Prop := v.same w = true ∧ v ≠ w

theorem Value.splits_iff {v w : Value} : v.Splits w ↔ v ≠ w ∧ v.plain = w.plain := by
  rw [Splits, same_iff, and_comm]

theorem Value.eq_of_not_splits {v w : Value} (h : ¬ v.Splits w) (hsame : v.same w = true) :
    v = w := by
  by_contra hne
  exact h ⟨hsame, hne⟩

theorem Upgrade.identityChanged_eq_false_iff {u : Upgrade} {v w : Value}
    (hv : u.old.identity? = some v) (hw : u.new.identity? = some w) :
    u.identityChanged = false ↔ v.same w = true := by
  rw [identityChanged, hv, hw, bne, Bool.not_eq_false', Option.some_beq_some]
  exact Iff.rfl

/-- Every store that was new once writes the new form over what is under its key, and nothing
else: the identity is taken for unchanged. -/
def Upgrade.InPlace (u : Upgrade) : Prop :=
  ∀ name supply calls, let s := (Store.fresh name supply).afterCalls calls
    (s.answer (.replace u.old u.new)).2 = .ok () ∧
      ∀ j, (s.answer (.replace u.old u.new)).1.at? j =
        if u.new.key? = some j then some u.new else s.at? j

namespace Store

variable {s : Store} {name : String}

def SinglyIdentified (s : Store) : Prop :=
  ∀ d ∈ s.collection.documents, ∀ e ∈ s.collection.documents, ∀ v w,
    d.identity? = some v → e.identity? = some w → v.same w = true → d = e

def Finds (s : Store) (v : Value) : Prop :=
  ∀ d ∈ s.collection.documents, ∀ w, d.identity? = some w → w.same v = true →
    (s.answer (.findById v)).2 = .ok (some d)

theorem Grown.singlyIdentified_iff (h : s.Grown name) :
    s.SinglyIdentified ↔ ∀ d ∈ s.collection.documents, ∀ e ∈ s.collection.documents, ∀ v w,
      d.identity? = some v → e.identity? = some w → ¬ v.Splits w := by
  constructor
  · rintro hone d hd e he v w hv hw ⟨hsame, hne⟩
    obtain rfl := hone d hd e he v w hv hw hsame
    exact hne (Option.some.inj (hv.symm.trans hw))
  · intro hno d hd e he v w hv hw hsame
    obtain rfl := Value.eq_of_not_splits (hno d hd e he v w hv hw) hsame
    exact h.keyed.eq_of_key?_eq hd he
      ((Document.key?_of_identity? hv).trans (Document.key?_of_identity? hw).symm)

theorem Grown.finds_iff (h : s.Grown name) (v : Value) :
    s.Finds v ↔ ∀ d ∈ s.collection.documents, ∀ w, d.identity? = some w → ¬ w.Splits v := by
  have hreply : (s.answer (.findById v)).2 = .ok (s.collection.find? v) :=
    (answers_findById h.inMemory v).reply
  have hfound : ∀ d ∈ s.collection.documents, ∀ w, d.identity? = some w →
      (s.collection.find? v = some d ↔ w = v) := by
    intro d hd w hw
    rw [h.keyed.orderly.found v d, hw, Option.some.injEq]
    exact and_iff_right hd
  constructor
  · rintro hfinds d hd w hw ⟨hsame, hne⟩
    have hreplied := hfinds d hd w hw hsame
    rw [hreply] at hreplied
    exact hne ((hfound d hd w hw).mp (Except.ok.inj hreplied))
  · intro hno d hd w hw hsame
    rw [hreply, (hfound d hd w hw).mpr (Value.eq_of_not_splits (hno d hd w hw) hsame)]

end Store

theorem Upgrade.inPlace_iff {u : Upgrade} {v w : Value} (hv : u.old.identity? = some v)
    (hw : u.new.identity? = some w) : u.InPlace ↔ v = w := by
  have ho : u.old.key? = some (Document.keyOf v) := Document.key?_of_identity? hv
  have hn : u.new.key? = some (Document.keyOf w) := Document.key?_of_identity? hw
  constructor
  · -- A store that holds the new form already refuses a change of the identity to it.
    intro hin
    by_contra hne
    let s := Store.fresh "" fun _ => ""
    have hs : s.Grown "" := Store.grown_fresh "" (fun _ => "") []
    have hs' : (s.answer (.insert u.new)).1.Grown "" :=
      Store.grown_fresh "" (fun _ => "") [.insert u.new]
    have hold : u.old.key? ≠ some (Document.keyOf w) := by
      rw [ho]
      exact fun h => hne (Value.compact_injective (Option.some.inj h))
    have htaken : (s.answer (.insert u.new)).1.at? (Document.keyOf w) ≠ none := by
      rw [Store.at?, (Store.answers_insert hs.inMemory hn rfl).collection, Collection.stored_put,
        TextMap.get?_insert_self]
      exact Option.some_ne_none u.new
    have hok := (hin "" (fun _ => "") [.insert u.new]).1
    cases hok.symm.trans ((hs'.replaced u.old u.new).taken _ hn hold htaken).1
  · rintro rfl name supply calls
    obtain ⟨hok, hafter⟩ := ((Store.grown_fresh name supply calls).replaced u.old u.new).overwritten
      (Document.keyOf v) hn ho
    refine ⟨hok, fun j => (hafter j).trans ?_⟩
    simp only [hn, Option.some.injEq, eq_comm]

/-- In a store that was new once and has answered any calls since, identities that compare equal
are one identity as far as none of them splits; values split that differ in the signs of zeros and
in nothing else. -/
theorem Store.one_identity_iff_not_splits (name : String) (supply : Nat → String)
    (calls : List Call) :
    let s := (fresh name supply).afterCalls calls
    (s.SinglyIdentified ↔ ∀ d ∈ s.collection.documents, ∀ e ∈ s.collection.documents, ∀ v w,
      d.identity? = some v → e.identity? = some w → ¬ v.Splits w) ∧
    (∀ v, s.Finds v ↔ ∀ d ∈ s.collection.documents, ∀ w, d.identity? = some w → ¬ w.Splits v) ∧
    (∀ (u : Upgrade) v w, u.old.identity? = some v → u.new.identity? = some w →
      ((u.InPlace ↔ u.identityChanged = false) ↔ ¬ v.Splits w)) ∧
    ∀ v w : Value, v.Splits w ↔ v ≠ w ∧ v.plain = w.plain := by
  intro s
  have hs : s.Grown name := grown_fresh name supply calls
  refine ⟨hs.singlyIdentified_iff, hs.finds_iff, fun u v w hv hw => ?_, fun v w =>
    Value.splits_iff⟩
  rw [Upgrade.inPlace_iff hv hw, Upgrade.identityChanged_eq_false_iff hv hw]
  constructor
  · rintro hiff ⟨hsame, hne⟩
    exact hne (hiff.mpr hsame)
  · intro hno
    exact ⟨fun heq => heq ▸ Value.same_refl v, Value.eq_of_not_splits hno⟩

/-! Numbers under the two zeros. -/

def zero : Value := .number (.float default)

def minusZero : Value := .number (.float ⟨0x8000000000000000, by decide⟩)

theorem zero_splits : zero.Splits minusZero := by
  refine ⟨by decide, fun h => ?_⟩
  have hfloat := Number.float.inj (Value.number.inj h)
  exact absurd hfloat (by decide)

def zeros : Store :=
  (Store.fresh "numbers" fun _ => "").afterCalls
    [.insert (.ofIdentity zero), .insert (.ofIdentity minusZero)]

theorem documents_zeros :
    zeros.collection.documents = [.ofIdentity minusZero, .ofIdentity zero] := rfl

theorem zeros_apart :
    let u : Upgrade := ⟨.ofIdentity zero, .ofIdentity minusZero⟩
    ¬ zeros.SinglyIdentified ∧ ¬ zeros.Finds minusZero ∧
      ¬ (u.InPlace ↔ u.identityChanged = false) := by
  intro u
  have hs : zeros.Grown "numbers" := Store.grown_fresh _ _ _
  have hzero : Document.ofIdentity zero ∈ zeros.collection.documents := by
    simp [documents_zeros]
  have hminus : Document.ofIdentity minusZero ∈ zeros.collection.documents := by
    simp [documents_zeros]
  refine ⟨fun hone => ?_, fun hfinds => ?_, fun hiff => ?_⟩
  · exact hs.singlyIdentified_iff.mp hone _ hzero _ hminus zero minusZero rfl rfl zero_splits
  · exact (hs.finds_iff minusZero).mp hfinds _ hzero zero rfl zero_splits
  · exact zero_splits.2 ((u.inPlace_iff rfl rfl).mp (hiff.mpr (by decide)))

end StoredObjects
