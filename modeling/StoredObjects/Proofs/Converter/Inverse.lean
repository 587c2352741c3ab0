import StoredObjects.Proofs.Converter.Matching

/-! # The two directions of the conversion

Making a document moves the value of the identity property to the reserved name of the identity.
Making an object leaves out the version and moves the identity back. A value that was moved to a
free name comes back from there, so that each direction undoes the other, up to the version.
-/

namespace StoredObjects

namespace Document

variable {d : Document} {field : String}

theorem erase_insert_self (d : Document) (field : String) (v : Value) :
    (d.insert field v).erase field = d.erase field := by
  refine ext_get? fun other => ?_
  by_cases h : other = field
  · rw [h, get?_erase_self, get?_erase_self]
  · rw [get?_erase_of_ne _ h, get?_erase_of_ne _ h, get?_insert_of_ne _ _ h]

theorem erase_of_get?_eq_none (h : d.get? field = none) : d.erase field = d := by
  refine ext_get? fun other => ?_
  by_cases heq : other = field
  · rw [heq, get?_erase_self, h]
  · exact get?_erase_of_ne d heq

end Document

namespace Converter

variable {Object : Type} {codec : Codec Object} {property : String} {d : Document}
  {m m' : TextMap Value} {object : Object}

/-! ## Moving a value -/

section Moving

variable {source target field : String}

theorem moveField_of_get? {v : Value} (hne : source ≠ target) (h : d.get? source = some v) :
    moveField source target d = (d.erase source).insert target v := by
  simp [moveField, hne, h]

theorem moveField_of_get?_eq_none (h : d.get? source = none) : moveField source target d = d := by
  simp [moveField, h]

theorem get?_moveField_of_ne (hsource : field ≠ source) (htarget : field ≠ target) (d : Document) :
    (moveField source target d).get? field = d.get? field := by
  by_cases hne : source = target
  · simp [moveField, hne]
  · cases hd : d.get? source with
    | none => rw [moveField_of_get?_eq_none hd]
    | some v =>
      rw [moveField_of_get? hne hd, Document.get?_insert_of_ne _ _ htarget,
        Document.get?_erase_of_ne _ hsource]

theorem get?_moveField_target (h : source = target ∨ d.get? target = none) :
    (moveField source target d).get? target = d.get? source := by
  by_cases hne : source = target
  · simp [moveField, hne]
  · cases hd : d.get? source with
    | none => rw [moveField_of_get?_eq_none hd, h.resolve_left hne]
    | some v => rw [moveField_of_get? hne hd, Document.get?_insert_self]

theorem moveField_moveField (h : source = target ∨ d.get? target = none) :
    moveField target source (moveField source target d) = d := by
  by_cases hne : source = target
  · simp [moveField, hne]
  have hfree := h.resolve_left hne
  cases hd : d.get? source with
  | none => rw [moveField_of_get?_eq_none hd, moveField_of_get?_eq_none hfree]
  | some v =>
    rw [moveField_of_get? hne hd, moveField_of_get? (Ne.symm hne) (Document.get?_insert_self ..)]
    refine Document.ext_get? fun field => ?_
    by_cases hsource : field = source
    · rw [hsource, Document.get?_insert_self, hd]
    · rw [Document.get?_insert_of_ne _ _ hsource]
      by_cases htarget : field = target
      · rw [htarget, Document.get?_erase_self, hfree]
      · rw [Document.get?_erase_of_ne _ htarget, Document.get?_insert_of_ne _ _ htarget,
          Document.get?_erase_of_ne _ hsource]

end Moving

/-! ## The version -/

theorem object_setVersion (n : Nat) :
    Converter.object codec property (d.setVersion n) = Converter.object codec property d := by
  have hproperties : properties property (d.setVersion n) = properties property d := by
    rw [properties, properties, Document.setVersion, Document.erase_insert_self]
  have hidentity : (d.setVersion n).identity? = d.identity? := by
    rw [Document.identity?, Document.setVersion,
      Document.get?_insert_of_ne _ _ Document.versionField_ne_identityField.symm]
    rfl
  rw [Converter.object, Converter.object, hproperties, hidentity]

/-! ## From objects and back -/

/-- The fields of an object that uses no reserved name, unless its identity has the reserved name
itself. -/
def Unreserved (property : String) (m : TextMap Value) : Prop :=
  m.get? Document.versionField = none ∧
    (property = Document.identityField ∨ m.get? Document.identityField = none)

theorem object_of_read (hread : codec.read (.ofMap (properties property d).fields) = .ok object) :
    Converter.object codec property d = .ok object := by
  unfold Converter.object
  rw [Document.toValue, hread]

theorem properties_moveField (h : Unreserved property m) :
    properties property (moveField property Document.identityField ⟨m⟩) = ⟨m⟩ := by
  obtain ⟨hversion, hfree⟩ := h
  -- also a property with the name of the version has nothing to move
  have hnone : (moveField property Document.identityField ⟨m⟩).get? Document.versionField =
      none := by
    by_cases hp : property = Document.versionField
    · rw [moveField_of_get?_eq_none (by rw [hp]; exact hversion)]
      exact hversion
    · rw [get?_moveField_of_ne (Ne.symm hp) Document.versionField_ne_identityField]
      exact hversion
  rw [properties, Document.erase_of_get?_eq_none hnone, moveField_moveField hfree]

/-- An object comes back from its document, which has its identity, also after the document was
given a version. -/
theorem exists_document_object (hwrite : codec.write object = .ofMap m)
    (hread : codec.read (.ofMap m) = .ok object) (h : Unreserved property m) :
    ∃ d, document codec property object = .ok d ∧
      d.get? Document.identityField = m.get? property ∧
      Converter.object codec property d = .ok object ∧
      ∀ n, Converter.object codec property (d.setVersion n) = .ok object := by
  have hback : Converter.object codec property
      (moveField property Document.identityField ⟨m⟩) = .ok object := by
    apply object_of_read
    rw [properties_moveField h]
    exact hread
  exact ⟨_, document_of_write hwrite, get?_moveField_target h.2, hback,
    fun n => (object_setVersion n).trans hback⟩

/-! ## From documents and back -/

/-- A document in which the name of the property is free comes back from its object, without its
version. -/
theorem document_of_properties (h : property = Document.identityField ∨ d.get? property = none)
    (hwrite : codec.write object = .ofMap (properties property d).fields) :
    document codec property object = .ok (d.erase Document.versionField) := by
  have hfree : Document.identityField = property ∨
      (d.erase Document.versionField).get? property = none := by
    refine h.imp Eq.symm fun hnone => ?_
    by_cases hp : property = Document.versionField
    · rw [hp, Document.get?_erase_self]
    · rw [Document.get?_erase_of_ne _ hp, hnone]
  rw [document_of_write hwrite]
  exact congrArg Except.ok (moveField_moveField hfree)

theorem exists_document_value (h : Unreserved property m) :
    ∃ d, (ofCodec .value property).toDocument (.ofMap m) = .ok d ∧
      d.get? Document.identityField = m.get? property ∧
      (ofCodec .value property).toObject d = .ok (.ofMap m) ∧
      ∀ n, (ofCodec .value property).toObject (d.setVersion n) = .ok (.ofMap m) := by
  have hwrite : Codec.value.write (.ofMap m) = .ofMap m := rfl
  have hread : Codec.value.read (.ofMap m) = .ok (.ofMap m) := rfl
  exact exists_document_object hwrite hread h

/-- Values without reserved names come back from their documents, whatever version these are given,
and documents in which the name of the property is free come back from their values, without their
version. No two such values have one document. -/
theorem values_and_documents_come_back (property : String) :
    (∀ m, Unreserved property m → ∃ d,
      (ofCodec .value property).toDocument (.ofMap m) = .ok d ∧
      d.get? Document.identityField = m.get? property ∧
      (ofCodec .value property).toObject d = .ok (.ofMap m) ∧
      ∀ n, (ofCodec .value property).toObject (d.setVersion n) = .ok (.ofMap m)) ∧
    (∀ d : Document, property = Document.identityField ∨ d.get? property = none → ∃ v,
      (ofCodec .value property).toObject d = .ok v ∧
      (ofCodec .value property).toDocument v = .ok (d.erase Document.versionField)) ∧
    ∀ m m', Unreserved property m → Unreserved property m' →
      (ofCodec .value property).toDocument (.ofMap m) =
        (ofCodec .value property).toDocument (.ofMap m') → m = m' := by
  refine ⟨fun m => exists_document_value, fun d hd => ?_, fun m m' hm hm' heq => ?_⟩
  · have hread : Codec.value.read (.ofMap (properties property d).fields) =
        .ok (.ofMap (properties property d).fields) := rfl
    have hwrite : Codec.value.write (.ofMap (properties property d).fields) =
        .ofMap (properties property d).fields := rfl
    exact ⟨_, object_of_read hread, document_of_properties hd hwrite⟩
  · -- the one document leads back to both values
    obtain ⟨d, hd, -, hback, -⟩ := exists_document_value hm
    obtain ⟨d', hd', -, hback', -⟩ := exists_document_value hm'
    obtain rfl : d = d' := Except.ok.inj (hd.symm.trans (heq.trans hd'))
    exact Value.ofMap_injective (Except.ok.inj (hback.symm.trans hback'))

/-! A pear without a name, as a value and as it is stored in its third version. -/

def nameless : TextMap Value := .ofList [("name", .null), ("origin", .text "Chile")]

def namelessStored : Document :=
  ⟨.ofList [("_formatVersion", .ofNat 3), ("_id", .null), ("origin", .text "Chile")]⟩

/-- An identity that is null comes back as well, and is told apart from one that is missing. -/
theorem nameless_comes_back :
    (∃ d, (ofCodec .value "name").toDocument (.ofMap nameless) = .ok d ∧
      d.get? Document.identityField = some .null ∧
      (ofCodec .value "name").toObject (d.setVersion 3) = .ok (.ofMap nameless)) ∧
    (∃ v, (ofCodec .value "name").toObject namelessStored = .ok v ∧
      (ofCodec .value "name").toDocument v = .ok (namelessStored.erase Document.versionField)) ∧
    (ofCodec .value "name").toDocument (.ofMap nameless) ≠
      (ofCodec .value "name").toDocument (.ofMap (nameless.erase "name")) := by
  obtain ⟨hvalues, hdocuments, hinjective⟩ := values_and_documents_come_back "name"
  have hnameless : Unreserved "name" nameless := ⟨by decide, Or.inr (by decide)⟩
  have herased : Unreserved "name" (nameless.erase "name") := ⟨by decide, Or.inr (by decide)⟩
  refine ⟨?_, hdocuments namelessStored (Or.inr (by decide)), fun heq => ?_⟩
  · obtain ⟨d, hd, hidentity, -, hback⟩ := hvalues nameless hnameless
    exact ⟨d, hd, hidentity, hback 3⟩
  · have hsame := hinjective _ _ hnameless herased heq
    have hname : nameless.contains "name" = (nameless.erase "name").contains "name" :=
      congrArg (fun m => m.contains "name") hsame
    exact absurd hname (by decide)

end Converter

end StoredObjects
