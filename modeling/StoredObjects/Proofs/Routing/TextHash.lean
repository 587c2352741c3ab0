import Mathlib.Algebra.BigOperators.Fin
import Mathlib.Data.Int.ModEq
import Mathlib.Data.List.TakeWhile
import Mathlib.Tactic.Ring
import StoredObjects.Proofs.ObjectType.Upgrade
import StoredObjects.Proofs.Routing.Ownership

/-! # The hash of text

The wrapping fold over the UTF-16 units of a text comes to the signed word that is congruent to
their polynomial in 31. Hosts that compute the polynomial in any way agree on it, and with it on the
owner of a document. Of a composed identity only the head is hashed.
-/

namespace StoredObjects

namespace Routing

/-! ## Units -/

/-- A character is one unit, or two surrogates with ten bits each. -/
inductive Utf16 (c : Char) : List Nat → Prop where
  | basic (hc : c.toNat < 0x10000) : Utf16 c [c.toNat]
  | supplementary {high low : Nat} (hhigh : high < 0x400) (hlow : low < 0x400)
      (hc : c.toNat = 0x10000 + high * 0x400 + low) : Utf16 c [0xd800 + high, 0xdc00 + low]

def IsUtf16 (s : String) (us : List Nat) : Prop :=
  ∃ pieces, List.Forall₂ Utf16 s.toList pieces ∧ us = pieces.flatten

theorem utf16_iff {c : Char} {us : List Nat} : Utf16 c us ↔ charUnits c = us := by
  constructor
  · intro h
    unfold charUnits
    cases h with
    | basic hc => rw [if_pos hc]
    | @supplementary high low hhigh hlow hc =>
      have hhigh' : (c.toNat - 0x10000) / 0x400 = high := by omega
      have hlow' : (c.toNat - 0x10000) % 0x400 = low := by omega
      rw [if_neg (by omega), hhigh', hlow']
  · rintro rfl
    unfold charUnits
    split
    · rename_i hc
      exact .basic hc
    · have hvalid := c.valid
      simp only [UInt32.isValidChar, Nat.isValidChar] at hvalid
      have hlt : c.toNat < 0x110000 := by
        simp only [Char.toNat]
        omega
      exact .supplementary (by omega) (by omega) (by omega)

theorem isUtf16_iff {s : String} {us : List Nat} : IsUtf16 s us ↔ units s = us := by
  have hsame : Utf16 = fun c us => charUnits c = us := by
    funext c us
    exact propext utf16_iff
  unfold IsUtf16 units
  rw [hsame]
  simp only [← List.forall₂_map_left_iff, List.forall₂_eq_eq_eq, exists_eq_left', List.flatMap_def]
  exact eq_comm

theorem units_append (a b : String) : units (a ++ b) = units a ++ units b := by
  simp [units]

/-! ## The polynomial -/

/-- The polynomial in 31 of which the units are the coefficients, the last one the constant. -/
def polynomial (us : List Nat) : Nat := ∑ i : Fin us.length, us[i] * 31 ^ (us.length - 1 - i)

theorem polynomial_cons (u : Nat) (us : List Nat) :
    polynomial (u :: us) = u * 31 ^ us.length + polynomial us := by
  have hexp : ∀ i : Fin us.length, us.length - (i + 1) = us.length - 1 - i := by
    intro i
    omega
  unfold polynomial
  refine (Fin.sum_univ_succ _).trans ?_
  simp [hexp]

theorem toInt_ofNat_modEq (n : Nat) : (Int32.ofNat n).toInt ≡ n [ZMOD 2 ^ 32] := by
  rw [Int32.toInt_ofNat']
  exact Int.bmod_emod

/-- One unit more, without the wrapping. -/
theorem toInt_fold_modEq (hash : Int32) (u : Nat) :
    (hash * 31 + Int32.ofNat u).toInt ≡ hash.toInt * 31 + u [ZMOD 2 ^ 32] := by
  have hmul : (hash * 31).toInt ≡ hash.toInt * 31 [ZMOD 2 ^ 32] := by
    rw [Int32.toInt_mul]
    exact Int.bmod_emod
  calc (hash * 31 + Int32.ofNat u).toInt
      ≡ (hash * 31).toInt + (Int32.ofNat u).toInt [ZMOD 2 ^ 32] := by
        rw [Int32.toInt_add]
        exact Int.bmod_emod
    _ ≡ hash.toInt * 31 + u [ZMOD 2 ^ 32] := hmul.add (toInt_ofNat_modEq u)

/-- The fold from any hash on: what was hashed is moved up by the units that follow. -/
theorem toInt_foldl_modEq (us : List Nat) (hash : Int32) :
    (us.foldl (fun hash u => hash * 31 + Int32.ofNat u) hash).toInt ≡
      hash.toInt * 31 ^ us.length + polynomial us [ZMOD 2 ^ 32] := by
  induction us generalizing hash with
  | nil => simp [polynomial, Int.ModEq]
  | cons u us ih =>
    rw [List.foldl_cons]
    calc (us.foldl (fun hash u => hash * 31 + Int32.ofNat u) (hash * 31 + Int32.ofNat u)).toInt
        ≡ (hash * 31 + Int32.ofNat u).toInt * 31 ^ us.length + polynomial us [ZMOD 2 ^ 32] := ih _
      _ ≡ (hash.toInt * 31 + u) * 31 ^ us.length + polynomial us [ZMOD 2 ^ 32] :=
        ((toInt_fold_modEq hash u).mul_right _).add_right _
      _ = hash.toInt * 31 ^ (u :: us).length + polynomial (u :: us) := by
        rw [polynomial_cons, List.length_cons]
        push_cast
        ring

theorem toInt_textHash_modEq (s : String) :
    (textHash s).toInt ≡ polynomial (units s) [ZMOD 2 ^ 32] := by
  simpa [textHash] using toInt_foldl_modEq (units s) 0

example : textHash "polygenelubricants" = Int32.minValue := by decide

/-- The hash of a text goes on from that of its front. -/
theorem toInt_textHash_append_modEq (a b : String) : (textHash (a ++ b)).toInt ≡
    (textHash a).toInt * 31 ^ (units b).length + (textHash b).toInt [ZMOD 2 ^ 32] := by
  have hfold : textHash (a ++ b) =
      (units b).foldl (fun hash u => hash * 31 + Int32.ofNat u) (textHash a) := by
    rw [textHash, units_append, List.foldl_append, ← textHash]
  rw [hfold]
  exact (toInt_foldl_modEq _ _).trans ((toInt_textHash_modEq b).symm.add_left _)

/-! ## Composed identities -/

namespace Key

theorem head_of_not_mem {s : String} (hs : delimiter ∉ s.toList) : head s = s := by
  have hall : s.toList.takeWhile (fun c => c != delimiter) = s.toList :=
    List.takeWhile_eq_self_iff.mpr fun c hc => by
      have hne : c ≠ delimiter := fun heq => hs (heq ▸ hc)
      simpa using hne
  rw [head, hall, String.ofList_toList]

theorem head_append {s : String} (hs : delimiter ∉ s.toList) (rest : String) :
    head (s ++ "^" ++ rest) = s := by
  have hall : ∀ c ∈ s.toList, (c != delimiter) = true := fun c hc => by
    have hne : c ≠ delimiter := fun heq => hs (heq ▸ hc)
    simpa using hne
  have hfront : (s ++ "^" ++ rest).toList.takeWhile (fun c => c != delimiter) = s.toList := by
    have hcons : (s ++ "^" ++ rest).toList = s.toList ++ delimiter :: rest.toList := by
      simp [delimiter]
    rw [hcons, List.takeWhile_append_of_pos hall]
    simp
  rw [head, hfront, String.ofList_toList]

theorem value?_of_identity {key : Key} (hkey : key.isIdentity = true) {d : Document} {s : String}
    (hd : d.identity? = some (.text s)) : key.value? d = some (.text (head s)) := by
  have hfield : key.field = Document.identityField := by simpa [isIdentity] using hkey
  obtain ⟨hget, -⟩ := Option.filter_eq_some_iff.mp hd
  simp [value?, hfield, hget, isIdentity]

end Key

/-- A document with a text for its identity belongs to the partition of the identity's head. -/
theorem Share.owns_of_head {share : Share} (hkey : share.key.isIdentity = true) {d : Document}
    {s h : String} (hd : d.identity? = some (.text s)) (hhead : Key.head s = h) : share.owns d =
      .ok (partitionOf (textHash h) share.partition.count == share.partition.id) := by
  simp [owns, Key.value?_of_identity hkey hd, hhead, hash]

/-- The hash of a text is the signed word that is congruent to the polynomial of its units. So the
hash of two texts in a row comes from their hashes, and each partition owns the documents of a
composed identity with those of its head. -/
theorem text_hash_is_polynomial :
    (∀ s, ∃! us, IsUtf16 s us) ∧
    (∀ s us, IsUtf16 s us → -2 ^ 31 ≤ (textHash s).toInt ∧ (textHash s).toInt < 2 ^ 31 ∧
      (textHash s).toInt ≡ polynomial us [ZMOD 2 ^ 32]) ∧
    (∀ a b us, IsUtf16 b us → (textHash (a ++ b)).toInt ≡
      (textHash a).toInt * 31 ^ us.length + (textHash b).toInt [ZMOD 2 ^ 32]) ∧
    ∀ (t : ObjectType) (h r : String) (d d' : Document) (p : Partition),
      t.routing.isIdentity = true → '^' ∉ h.toList → d.identity? = some (.text h) →
      d'.identity? = some (.text (h ++ "^" ++ r)) →
      Share.owns ⟨t.routing, p⟩ d = .ok (partitionOf (textHash h) p.count == p.id) ∧
        Share.owns ⟨t.routing, p⟩ d' = .ok (partitionOf (textHash h) p.count == p.id) := by
  simp only [isUtf16_iff]
  refine ⟨fun s => ⟨units s, rfl, fun us hus => hus.symm⟩, ?_, ?_, ?_⟩
  · rintro s us rfl
    exact ⟨Int32.le_toInt _, Int32.toInt_lt _, toInt_textHash_modEq s⟩
  · rintro a b us rfl
    exact toInt_textHash_append_modEq a b
  · intro t h r d d' p hidentity hh hd hd'
    exact ⟨Share.owns_of_head hidentity hd (Key.head_of_not_mem hh),
      Share.owns_of_head hidentity hd' (Key.head_append hh r)⟩

/-- An apple outside the basic plane has two surrogates, and a composed identity is owned with its
head. -/
theorem apple_hash_from_surrogates :
    (textHash "🍎").toInt ≡ 0xd83c * 31 + 0xdf4e [ZMOD 2 ^ 32] ∧
    (textHash "A🍎").toInt ≡ (textHash "A").toInt * 31 ^ 2 + (textHash "🍎").toInt [ZMOD 2 ^ 32] ∧
    Share.owns ⟨fruitType.routing, ⟨2, 3⟩⟩ (.ofIdentity (.text "A🍎")) =
      Share.owns ⟨fruitType.routing, ⟨2, 3⟩⟩ (.ofIdentity (.text "A🍎^2024^7")) := by
  obtain ⟨-, hpolynomial, happend, howned⟩ := text_hash_is_polynomial
  have hunits : IsUtf16 "🍎" [0xd83c, 0xdf4e] := isUtf16_iff.mpr (by decide)
  have hvalue : (polynomial [0xd83c, 0xdf4e] : Int) = 0xd83c * 31 + 0xdf4e := by decide
  obtain ⟨-, -, hhash⟩ := hpolynomial "🍎" _ hunits
  rw [hvalue] at hhash
  obtain ⟨hhead, hcomposed⟩ := howned fruitType "A🍎" "2024^7" (.ofIdentity (.text "A🍎"))
    (.ofIdentity (.text "A🍎^2024^7")) ⟨2, 3⟩ (by decide) (by decide) rfl rfl
  have hjoined := happend "A" "🍎" _ hunits
  rw [show "A" ++ "🍎" = "A🍎" from by decide] at hjoined
  exact ⟨hhash, hjoined, hhead.trans hcomposed.symm⟩

end Routing

end StoredObjects
