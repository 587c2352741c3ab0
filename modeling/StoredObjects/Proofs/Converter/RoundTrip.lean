import StoredObjects.Proofs.ObjectType.Upgrade

/-! # Objects that come back

An object moves its identity to the reserved name of the identity and is given a version, and on the
way back both are undone. Nothing is lost when the object has an identity and does not use the
reserved names itself.
-/

namespace StoredObjects

namespace TextMap

variable {α : Type}

theorem get?_foldl_insert (m : TextMap α) {entries : List (String × α)}
    (h : entries.Pairwise fun x y => x.1 < y.1) (k : String) :
    (entries.foldl (fun m e => m.insert e.1 e.2) m).get? k =
      (Entries.get? k entries).or (m.get? k) := by
  induction entries generalizing m with
  | nil => rfl
  | cons e entries ih =>
    obtain ⟨hlt, hrest⟩ := List.pairwise_cons.mp h
    rw [List.foldl_cons, ih _ hrest]
    by_cases hk : k = e.1
    · subst hk
      rw [Entries.get?_eq_none_of_lt hlt, get?_insert_self]
      simp [Entries.get?]
    · rw [get?_insert_of_ne _ _ hk]
      simp [Entries.get?, hk]

theorem ofList_entries (m : TextMap α) : ofList m.entries = m := by
  apply ext_get?
  intro k
  refine (get?_foldl_insert empty m.ascending k).trans ?_
  rw [get?_empty, Option.or_none]
  rfl

end TextMap

theorem Value.ofMap_injective {m m' : TextMap Value} (h : Value.ofMap m = .ofMap m') : m = m' := by
  rw [← TextMap.ofList_entries m, Value.object.inj h, TextMap.ofList_entries]

theorem Document.ofValue_ofMap (m : TextMap Value) : ofValue (.ofMap m) = .ok ⟨m⟩ := by
  simp [ofValue, Value.ofMap, TextMap.ofList_entries]

/-- An object without reserved names, and what it has as its identity. -/
def Value.Identifies (property : String) (v identity : Value) : Prop :=
  ∃ m : TextMap Value, v = .ofMap m ∧ m.get? Document.identityField = none ∧
    m.get? Document.versionField = none ∧ m.get? property = some identity ∧
    identity.isNull = false

theorem Value.Identifies.unique {property : String} {v identity identity' : Value}
    (h : v.Identifies property identity) (h' : v.Identifies property identity') :
    identity = identity' := by
  obtain ⟨m, rfl, -, -, hm, -⟩ := h
  obtain ⟨m', heq, -, -, hm', -⟩ := h'
  obtain rfl := Value.ofMap_injective heq
  exact Option.some.inj (hm.symm.trans hm')

namespace Converter

variable {Object : Type} {codec : Codec Object} {property : String} {m : TextMap Value}
  {object : Object} {identity : Value}

theorem document_of_write (hwrite : codec.write object = .ofMap m) :
    document codec property object = .ok (moveField property Document.identityField ⟨m⟩) := by
  rw [document, hwrite, Document.ofValue_ofMap]
  rfl

theorem document_of_get? (hwrite : codec.write object = .ofMap m)
    (hproperty : property ≠ Document.identityField) (hidentity : m.get? property = some identity) :
    document codec property object =
      .ok (((Document.mk m).erase property).insert Document.identityField identity) := by
  have hget : (Document.mk m).get? property = some identity := hidentity
  rw [document_of_write hwrite]
  simp [moveField, hproperty, hget]

theorem properties_setVersion (hproperty : property ≠ Document.identityField)
    (hversion : property ≠ Document.versionField)
    (hplain : m.get? Document.identityField = none ∧ m.get? Document.versionField = none)
    (hidentity : m.get? property = some identity) (n : Nat) :
    properties property
      ((((Document.mk m).erase property).insert Document.identityField identity).setVersion n) =
        ⟨m⟩ := by
  have hne := Document.versionField_ne_identityField
  rw [properties, moveField, if_neg (Ne.symm hproperty), Document.get?_erase_of_ne _ hne.symm,
    Document.setVersion, Document.get?_insert_of_ne _ _ hne.symm, Document.get?_insert_self]
  apply Document.ext_get?
  intro field
  -- the three names that the conversion touches, and all others
  by_cases hp : field = property
  · subst hp
    rw [Document.get?_insert_self]
    exact hidentity.symm
  · rw [Document.get?_insert_of_ne _ _ hp]
    by_cases hi : field = Document.identityField
    · subst hi
      rw [Document.get?_erase_self]
      exact hplain.1.symm
    · rw [Document.get?_erase_of_ne _ hi]
      by_cases hv : field = Document.versionField
      · subst hv
        rw [Document.get?_erase_self]
        exact hplain.2.symm
      · rw [Document.get?_erase_of_ne _ hv, Document.get?_insert_of_ne _ _ hv,
          Document.get?_insert_of_ne _ _ hi, Document.get?_erase_of_ne _ hp]

end Converter

/-- The document of an object has its identity and the current version, and leads back to it. -/
theorem Binding.exists_document {Object : Type} {b : Binding Object} {codec : Codec Object}
    {property : String} (hconverter : b.converter = .ofCodec codec property)
    (hproperty : property ≠ Document.identityField) (hversion : property ≠ Document.versionField)
    (hfit : b.type.VersionsFit) {object : Object} {identity : Value}
    (hobject : (codec.write object).Identifies property identity)
    (hread : codec.read (codec.write object) = .ok object) :
    ∃ d, b.document object = .ok d ∧ d.identity? = some identity ∧
      d.version = b.type.currentVersion ∧ b.converter.toObject d = .ok object := by
  obtain ⟨m, hwrite, hidField, hversionField, hidentity, hnull⟩ := hobject
  have hne := Document.versionField_ne_identityField
  refine ⟨(((Document.mk m).erase property).insert Document.identityField identity).setVersion
    b.type.currentVersion, ?_, ?_, ?_, ?_⟩
  · simp only [Binding.document, hconverter, Converter.ofCodec,
      Converter.document_of_get? hwrite hproperty hidentity]
    rfl
  · simp [Document.identity?, Document.setVersion, Document.get?_insert_of_ne _ _ hne.symm, hnull]
  · exact Document.version_setVersion _ (Nat.lt_trans hfit (by decide))
  · simp only [hconverter, Converter.ofCodec, Converter.object,
      Converter.properties_setVersion hproperty hversion ⟨hidField, hversionField⟩ hidentity]
    rw [hwrite] at hread
    rw [Document.toValue, hread]

end StoredObjects
