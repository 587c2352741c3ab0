import StoredObjects.Proofs.Converter.RoundTrip

/-! # Queries for objects like a template

A query asks for values, and a null value is never asked for. Whether a document meets it is
therefore seen in the values that the document has and that are not null. Where making an object of
a document and a document of that object keeps these values, the document that comes out meets a
query exactly when the first one does.
-/

namespace StoredObjects

namespace Document

def present? (d : Document) (field : String) : Option Value :=
  (d.get? field).filter fun v => !v.isNull

theorem get?_of_identity? {d : Document} {v : Value} (h : d.identity? = some v) :
    d.get? identityField = some v := (Option.filter_eq_some_iff.mp h).1

theorem get?_beq_some {d : Document} {field : String} {v : Value} (hv : v.isNull = false) :
    (d.get? field == some v) = (d.present? field == some v) := by
  unfold present?
  cases d.get? field with
  | none => rfl
  | some w =>
    cases w with
    | null => cases v <;> first | rfl | cases hv
    | _ => rfl

end Document

namespace Query

variable {q : Query} {d e : Document}

theorem of_mem_ofTemplate {template : Document} {c : String × Value}
    (h : c ∈ (ofTemplate template).criteria.entries) :
    template.get? c.1 = some c.2 ∧ c.2.isNull = false := by
  obtain ⟨hmem, hnull⟩ := List.mem_filter.mp h
  exact ⟨(TextMap.mem_entries_iff _).mp hmem, by simpa using hnull⟩

theorem isMet_congr (hnull : ∀ c ∈ q.criteria.entries, c.2.isNull = false)
    (h : ∀ c ∈ q.criteria.entries, d.present? c.1 = e.present? c.1) : q.isMet d = q.isMet e := by
  rw [Bool.eq_iff_iff, isMet, isMet, List.all_eq_true, List.all_eq_true]
  refine forall₂_congr fun c hc => ?_
  rw [Document.get?_beq_some (hnull c hc), Document.get?_beq_some (hnull c hc), h c hc]

end Query

/-- Reading an object and writing it keeps the value of a field, if it is not null. -/
def Codec.Keeps {Object : Type} (codec : Codec Object) (field : String) : Prop :=
  ∀ m object, codec.read (.ofMap m) = .ok object → ∃ m', codec.write object = .ofMap m' ∧
    (Document.mk m').present? field = (Document.mk m).present? field

theorem Codec.keeps_value (field : String) : Codec.value.Keeps field :=
  fun m _ h => ⟨m, (Except.ok.inj h).symm, rfl⟩

namespace Converter

variable {Object : Type} {codec : Codec Object} {property : String} {d : Document}
  {object template : Object} {q : Query}

theorem get?_moveField_source {source target : String} (h : source ≠ target) (d : Document) :
    (moveField source target d).get? source = none := by
  unfold moveField
  rw [if_neg h]
  cases hd : d.get? source with
  | none => exact hd
  | some v => rw [Document.get?_insert_of_ne _ _ h, Document.get?_erase_self]

theorem get?_document (h : property ≠ Document.identityField)
    (hd : document codec property object = .ok d) : d.get? property = none := by
  unfold document at hd
  cases hv : Document.ofValue (codec.write object) with
  | error e =>
    rw [hv] at hd
    cases hd
  | ok e =>
    rw [hv] at hd
    obtain rfl := Except.ok.inj hd
    exact get?_moveField_source h e

theorem read_of_object (h : Converter.object codec property d = .ok object) :
    codec.read (.ofMap (properties property d).fields) = .ok object := by
  unfold Converter.object at h
  split at h
  · rename_i hread
    exact hread.trans (congrArg Except.ok (Except.ok.inj h))
  · cases h

theorem document_of_eq {m : TextMap Value} (hwrite : codec.write object = .ofMap m) :
    document codec Document.identityField object = .ok ⟨m⟩ := by
  rw [document_of_write hwrite]
  rfl

theorem get?_properties_self {identity : Value} (h : d.identity? = some identity) :
    (properties property d).get? property = some identity := by
  have hget : (d.erase Document.versionField).get? Document.identityField = some identity := by
    rw [Document.get?_erase_of_ne _ Document.versionField_ne_identityField.symm]
    exact Document.get?_of_identity? h
  unfold properties moveField
  by_cases hproperty : Document.identityField = property
  · rw [if_pos hproperty, ← hproperty, hget]
  · rw [if_neg hproperty, hget]
    exact Document.get?_insert_self ..

theorem get?_properties_of_ne {field : String} (hidentity : field ≠ Document.identityField)
    (hversion : field ≠ Document.versionField) (hproperty : field ≠ property) :
    (properties property d).get? field = d.get? field := by
  unfold properties moveField
  split
  · exact Document.get?_erase_of_ne d hversion
  · split
    · rw [Document.get?_insert_of_ne _ _ hproperty, Document.get?_erase_of_ne _ hidentity,
        Document.get?_erase_of_ne _ hversion]
    · exact Document.get?_erase_of_ne d hversion

/-- A document with an identity comes back from the object that was made of it: the identity, and
every field that the conversion keeps. -/
theorem exists_document_of_object {identity : Value} (hidentity : d.identity? = some identity)
    (hproperty : codec.Keeps property) (hobject : Converter.object codec property d = .ok object) :
    ∃ form, document codec property object = .ok form ∧
      form.present? Document.identityField = d.present? Document.identityField ∧
      ∀ field, field ≠ Document.identityField → field ≠ Document.versionField →
        field ≠ property → codec.Keeps field → form.present? field = d.present? field := by
  have hread := read_of_object hobject
  obtain ⟨m, hwrite, hown⟩ := hproperty _ _ hread
  -- what is kept, in terms of the document
  have hsame : (Document.mk m).present? property = d.present? Document.identityField := by
    rw [hown, Document.present?, Document.present?]
    exact congrArg _ ((get?_properties_self hidentity).trans
      (Document.get?_of_identity? hidentity).symm)
  have hkept : ∀ field, field ≠ Document.identityField → field ≠ Document.versionField →
      field ≠ property → codec.Keeps field →
        (Document.mk m).present? field = d.present? field := by
    intro field hi hv hp hkeeps
    obtain ⟨m', hwrite', hfield⟩ := hkeeps _ _ hread
    obtain rfl := Value.ofMap_injective (hwrite.symm.trans hwrite')
    rw [hfield, Document.present?, Document.present?]
    exact congrArg _ (get?_properties_of_ne hi hv hp)
  by_cases heq : property = Document.identityField
  · subst heq
    exact ⟨⟨m⟩, document_of_eq hwrite, hsame, hkept⟩
  · have hget : m.get? property = some identity := by
      have hpresent : (Document.mk m).present? property = some identity := hsame.trans hidentity
      exact (Option.filter_eq_some_iff.mp hpresent).1
    refine ⟨_, document_of_get? hwrite heq hget, ?_, fun field hi hv hp hkeeps => ?_⟩
    · rw [Document.present?, Document.present?, Document.get?_insert_self,
        Document.get?_of_identity? hidentity]
    · rw [← hkept field hi hv hp hkeeps, Document.present?, Document.present?,
        Document.get?_insert_of_ne _ _ hi, Document.get?_erase_of_ne _ hp]

/-- The conversion keeps what a query asks for, and the query does not ask for the version, which
objects do not have. -/
structure Preserves (codec : Codec Object) (property : String) (q : Query) : Prop where
  identity : codec.Keeps property
  fields : ∀ c ∈ q.criteria.entries, c.1 ≠ Document.versionField ∧
    (c.1 = Document.identityField ∨ codec.Keeps c.1)

/-- The document of an object meets the query for objects like a template exactly when the document
that the object was made of does. -/
theorem Preserves.exists_document {identity : Value} (h : Preserves codec property q)
    (hq : (ofCodec codec property).toQuery template = .ok q)
    (hidentity : d.identity? = some identity)
    (hobject : (ofCodec codec property).toObject d = .ok object) :
    ∃ form, (ofCodec codec property).toDocument object = .ok form ∧ q.isMet form = q.isMet d := by
  obtain ⟨form, hform, hsame, hkept⟩ := exists_document_of_object hidentity h.identity hobject
  refine ⟨form, hform, ?_⟩
  change (document codec property template).map Query.ofTemplate = .ok q at hq
  cases ht : document codec property template with
  | error e =>
    rw [ht] at hq
    cases hq
  | ok asked =>
    rw [ht] at hq
    obtain rfl := Except.ok.inj hq
    refine Query.isMet_congr (fun c hc => (Query.of_mem_ofTemplate hc).2) fun c hc => ?_
    obtain ⟨hversion, hfield⟩ := h.fields c hc
    by_cases hi : c.1 = Document.identityField
    · rw [hi, hsame]
    · refine hkept c.1 hi hversion (fun hp => ?_) (hfield.resolve_left hi)
      have hnone := get?_document (fun heq => hi (hp.trans heq)) ht
      cases (hp ▸ hnone).symm.trans (Query.of_mem_ofTemplate hc).1

end Converter

end StoredObjects
