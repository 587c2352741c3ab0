import StoredObjects.Proofs.Load.Restart

/-! # Documents loaded by identity

A load by identity finds one document, does the work on it and writes it back. On a collection that
is on its way to the current shape it takes the document one step further. Loading every document
that belongs here, one after another in any order, therefore comes to the same as loading them all
at once.
-/

namespace StoredObjects

namespace Load

variable {Object : Type}

namespace Loader

variable {l : Loader Object} {c : Collection} {w : World} {S : Document → Prop} {d : Document}
  {v identity : Value}

def notHere (l : Loader Object) (v : Value) : Failure :=
  .illegalArgument s!"document {v.compact} of '{l.type.name}' does not belong to this partition"

/-- The document is stored under what the converter makes of the value. -/
def Names (l : Loader Object) (v : Value) (d : Document) : Prop :=
  ∃ identity, d.identity? = some identity ∧ l.binding.converter.toStored v = .ok identity

/-! ## One load -/

theorem run_loadById_of_unstorable {e : Failure}
    (hstored : l.binding.converter.toStored v = .error e) (w : World) :
    (l.loadById v).run w = (w, .error (.failed e)) := by
  unfold loadById
  simp only [hstored, Program.run_done]

theorem run_loadById_of_absent (hw : w.InMemory)
    (hstored : l.binding.converter.toStored v = .ok identity)
    (hfind : (w.contents l.binding.store).find? identity = none) :
    (l.loadById v).run w = ((w.answer l.binding.store (.findById identity)).1, .ok none) := by
  have hreply := (World.answer_findById hw l.binding.store identity).2
  rw [hfind] at hreply
  unfold loadById Program.perform
  simp only [hstored]
  rw [Program.bind_call, Program.run_call, hreply]
  rfl

theorem run_loadById_of_found (hw : w.InMemory)
    (hstored : l.binding.converter.toStored v = .ok identity)
    (hfind : (w.contents l.binding.store).find? identity = some d) :
    (l.loadById v).run w =
      let w₁ := (w.answer l.binding.store (.findById identity)).1
      match (l.step l.filter).process d with
      | .error halt => (w₁, .error halt)
      | .ok none => (w₁, .error (.failed (l.notHere v)))
      | .ok (some loaded) =>
        let written := (writeBack l.binding.store loaded.upgrade.toList).run w₁
        (written.1, (written.2.mapError Halt.failed).map fun _ => some loaded.object) := by
  have hreply := (World.answer_findById hw l.binding.store identity).2
  rw [hfind] at hreply
  unfold loadById Program.perform
  simp only [hstored]
  rw [Program.bind_call, Program.run_call, hreply, Program.bind_done]
  dsimp only
  cases (l.step l.filter).process d with
  | error halt => rfl
  | ok wanted =>
    cases wanted with
    | none => rfl
    | some loaded => exact Program.run_bind _ _ _

def loadEach (l : Loader Object) : List Value → Program (List (Except Halt (Option Object)))
  | [] => .done []
  | v :: rest => (l.loadById v).bind fun r => (loadEach l rest).bind fun rs => .done (r :: rs)

theorem run_loadEach_cons (l : Loader Object) (v : Value) (rest : List Value) (w : World) :
    (l.loadEach (v :: rest)).run w =
      (((l.loadEach rest).run ((l.loadById v).run w).1).1,
        ((l.loadById v).run w).2 :: ((l.loadEach rest).run ((l.loadById v).run w).1).2) := by
  rw [loadEach, Program.run_bind, Program.run_bind]
  rfl

/-! ## Loads of a collection on its way -/

section OnItsWay

variable (ht : l.type.VersionsFit) (hkeyed : c.Keyed) (hj : l.Judges c l.wants)
  (hm : Movable l.type c fun d => l.wants d = true) (hw : w.InMemory)
  (h : Upgraded l.type c S (w.contents l.binding.store))
  (hSW : ∀ d ∈ c.documents, S d → l.wants d = true) (hd : d ∈ c.documents) (hS : ¬ S d)
  (hidentity : d.identity? = some identity)
  (hstored : l.binding.converter.toStored v = .ok identity)

include h hd hS hidentity in
theorem find?_of_upgraded : (w.contents l.binding.store).find? identity = some d := by
  have hmem : d ∈ (w.contents l.binding.store).documents :=
    (h.mem d).mpr ⟨d, hd, Or.inr ⟨hS, rfl⟩⟩
  exact h.keyed.get?_iff.mpr ⟨hmem, Document.key?_of_identity? hidentity⟩

include ht hj hw h hd hS hidentity hstored in
/-- A document that is not wanted is refused, and stays as it is. -/
theorem run_loadById_of_unwanted (hwants : l.wants d = false) :
    ((l.loadById v).run w).1.contents = w.contents ∧
      ((l.loadById v).run w).2 = .error (.failed (l.notHere v)) := by
  obtain ⟨object, -, hprocess⟩ := process_form hj ht hd (Or.inr rfl)
  rw [hwants] at hprocess
  rw [run_loadById_of_found hw hstored (find?_of_upgraded h hd hS hidentity), hprocess]
  exact ⟨(World.answer_findById hw l.binding.store identity).1, rfl⟩

include ht hkeyed hj hm hw h hSW hd hS hidentity hstored in
/-- A wanted document is loaded, and is in its current form from then on. -/
theorem run_loadById_of_wanted (hwants : l.wants d = true) :
    (∃ object, served l.type l.binding.converter d = some object ∧
      ((l.loadById v).run w).2 = .ok (some object)) ∧
      ∃ c', ((l.loadById v).run w).1.contents =
          Function.update w.contents l.binding.store c' ∧
        Upgraded l.type c (fun e => S e ∨ e = d) c' := by
  obtain ⟨object, hserved, hprocess⟩ := process_form hj ht hd (Or.inr rfl)
  have hread := (World.answer_findById hw l.binding.store identity).1
  rw [hwants] at hprocess
  rw [run_loadById_of_found hw hstored (find?_of_upgraded h hd hS hidentity), hprocess]
  by_cases hold : d.version < l.type.currentVersion
  · obtain ⟨c', hreplace, hend⟩ := h.exchange hkeyed hm hSW hd hwants hS
    have hrewrite : ((w.answer l.binding.store (.findById identity)).1.contents
        l.binding.store).rewrite [⟨d, l.type.latest d⟩] = .ok c' := by
      rw [hread, Collection.rewrite_cons, hreplace]
      rfl
    obtain ⟨-, hcontents, hok⟩ :=
      run_writeBack_of_ok (hw.answer l.binding.store (.findById identity)) hrewrite
    simp only [hold, if_true, Option.toList_some]
    refine ⟨⟨object, hserved, ?_⟩, c', ?_, hend⟩
    · rw [hok]
      rfl
    · rw [hcontents, hread]
  · -- a current document is its own current form, and nothing is written
    have hcurrent : l.type.latest d = d := latest_of_current hj hd hold
    simp only [hold, if_false, if_true, Option.toList_none]
    refine ⟨⟨object, hserved, rfl⟩, w.contents l.binding.store, ?_, ?_⟩
    · exact hread.trans (Function.update_eq_self l.binding.store w.contents).symm
    · refine h.congr fun e _ => ?_
      by_cases he : e = d
      · exact Or.inr (he ▸ hcurrent)
      · exact Or.inl (by simp [he])

include ht hkeyed hj hm in
/-- Wanted documents that were not exchanged yet can be loaded in any order. -/
theorem run_loadEach_of_upgraded {vs : List Value} {ds : List Document}
    (hnames : List.Forall₂ l.Names vs ds) (hds : ds.Nodup)
    (hwanted : ∀ d ∈ ds, d ∈ c.documents ∧ l.wants d = true ∧ ¬ S d) (hw : w.InMemory)
    (h : Upgraded l.type c S (w.contents l.binding.store))
    (hSW : ∀ d ∈ c.documents, S d → l.wants d = true) :
    ((l.loadEach vs).run w).2 =
        (ds.filterMap (served l.type l.binding.converter)).map (fun object => .ok (some object)) ∧
      ∃ c', ((l.loadEach vs).run w).1.contents = Function.update w.contents l.binding.store c' ∧
        Upgraded l.type c (fun e => S e ∨ e ∈ ds) c' := by
  induction hnames generalizing S w with
  | nil =>
    refine ⟨rfl, w.contents l.binding.store, ?_, h.congr fun e _ => Or.inl (by simp)⟩
    exact (Function.update_eq_self l.binding.store w.contents).symm
  | @cons v d vs ds hname hnames ih =>
    obtain ⟨hd, hwants, hS⟩ := hwanted d List.mem_cons_self
    obtain ⟨hfresh, hrest⟩ := List.nodup_cons.mp hds
    obtain ⟨identity, hidentity, hstored⟩ := hname
    obtain ⟨⟨object, hserved, hresult⟩, c₁, hcontents₁, h₁⟩ :=
      run_loadById_of_wanted ht hkeyed hj hm hw h hSW hd hS hidentity hstored hwants
    have hstore : ((l.loadById v).run w).1.contents l.binding.store = c₁ := by
      rw [hcontents₁]
      exact Function.update_self ..
    obtain ⟨hresults, c₂, hcontents₂, h₂⟩ := ih hrest (by
      intro e he
      obtain ⟨hec, hewants, heS⟩ := hwanted e (List.mem_cons_of_mem _ he)
      exact ⟨hec, hewants, fun hor => hor.elim heS fun heq => hfresh (heq ▸ he)⟩)
      (Program.inMemory_run hw (l.loadById v)) (hstore.symm ▸ h₁) (by
      intro e he hor
      exact hor.elim (hSW e he) fun heq => heq ▸ hwants)
    rw [List.filterMap_cons_some hserved, run_loadEach_cons]
    refine ⟨?_, c₂, ?_, h₂.congr fun e _ => Or.inl (by simp [or_assoc])⟩
    · rw [hresult, hresults]
      rfl
    · rw [hcontents₂, hcontents₁]
      exact Function.update_idem ..

end OnItsWay

end Loader

/-- Loading the wanted documents by their identities, in any order, gives the objects of a load of
everything and leaves its contents. A stored document that is not wanted is refused and stays as it
is, and for an identity that is not stored there is no object. The converter may give the caller's
values another form to store them; a value that has none is a failure. -/
theorem loads_by_identity_agree (l : Loader Object) (hwrite : l.type.writeBack = true)
    (hrouted : l.type.routed = false) (hexcluded : l.type.excludedFromLoad = false)
    (ht : l.type.VersionsFit) {w : World} (hw : w.InMemory)
    (hkeyed : (w.contents l.binding.store).Keyed)
    (hload : l.Loadable (w.contents l.binding.store))
    (hmove : Movable l.type (w.contents l.binding.store) fun d => l.wants d = true)
    (schedule : Schedule) :
    let documents := (w.contents l.binding.store).documents
    (∀ (vs : List Value) (ds : List Document), List.Forall₂ l.Names vs ds →
        ds.Perm (documents.filter l.wants) →
      let each := (l.loadEach vs).run w
      ∃ objects all : List Object, each.2 = objects.map (fun object => .ok (some object)) ∧
        ((l.loadAll schedule).run w).2.2 = .ok (.loaded all) ∧ objects.Perm all ∧
        objects.length = ds.length ∧
        each.1.contents = ((l.loadAll schedule).run w).1.contents) ∧
    (∀ d ∈ documents, l.wants d = false → ∃ identity, d.identity? = some identity ∧
      ∀ v, l.binding.converter.toStored v = .ok identity →
        ((l.loadById v).run w).2 = .error (.failed (l.notHere v)) ∧
        ((l.loadById v).run w).1.contents = w.contents) ∧
    (∀ v identity, l.binding.converter.toStored v = .ok identity →
      (∀ d ∈ documents, d.key? ≠ some (Document.keyOf identity)) →
        ((l.loadById v).run w).2 = .ok none ∧ ((l.loadById v).run w).1.contents = w.contents) ∧
    ∀ v e, l.binding.converter.toStored v = .error e →
      (l.loadById v).run w = (w, .error (.failed e)) := by
  intro documents
  have hj := hload.judges
  have hstart := upgraded_refl (t := l.type) hkeyed
  refine ⟨fun vs ds hnames hds => ?_, fun d hd hwants => ?_, fun v identity hstored habsent => ?_,
    fun v e hstored => Loader.run_loadById_of_unstorable hstored w⟩
  · have hmem : ∀ d, d ∈ ds ↔ d ∈ documents ∧ l.wants d = true := fun d => by
      rw [hds.mem_iff, List.mem_filter]
    have hnodup : ds.Nodup := hds.nodup_iff.mpr (hkeyed.nodup_documents.filter _)
    obtain ⟨heach, c₁, hcontents₁, h₁⟩ := Loader.run_loadEach_of_upgraded ht hkeyed hj hmove
      hnames hnodup
      (fun d hd => ⟨((hmem d).mp hd).1, ((hmem d).mp hd).2, not_false⟩) hw hstart
      (fun _ _ h => h.elim)
    obtain ⟨-, ⟨c₂, hcontents₂, h₂⟩, all, hall, hobjects⟩ := Loader.run_loadAll_of_upgraded hwrite
      hrouted hexcluded ht hkeyed hj hmove hw hstart (fun _ _ h => h.elim) schedule
    have hsame : c₁ = c₂ := h₁.unique <| h₂.congr fun d hd => Or.inl <| by
      simp only [false_or, hmem d]
      exact (and_iff_right hd).symm
    refine ⟨_, all, heach, hall, (hds.filterMap _).trans hobjects.symm, ?_, ?_⟩
    · -- every wanted document has an object
      rw [List.length_filterMap_eq_countP, List.countP_eq_length]
      intro d hd
      obtain ⟨object, hserved, -⟩ := process_form hj ht ((hmem d).mp hd).1 (Or.inr rfl)
      rw [hserved]
      rfl
    · rw [hcontents₁, hcontents₂, hsame]
  · obtain ⟨k, hk⟩ := hkeyed.key?_of_mem hd
    obtain ⟨identity, hidentity, -⟩ := Option.map_eq_some_iff.mp hk
    refine ⟨identity, hidentity, fun v hstored => ?_⟩
    obtain ⟨hcontents, hrefused⟩ :=
      Loader.run_loadById_of_unwanted ht hj hw hstart hd not_false hidentity hstored hwants
    exact ⟨hrefused, hcontents⟩
  · have hfind : (w.contents l.binding.store).find? identity = none :=
      hkeyed.get?_eq_none_iff.mpr habsent
    rw [Loader.run_loadById_of_absent hw hstored hfind]
    exact ⟨rfl, (World.answer_findById hw l.binding.store identity).1⟩

/-! Both fruits move to new identities, the pear first. On the second of two processes only the pear
belongs to the process. -/

theorem pear_before_apple :
    (∃ objects all : List Value,
      ((labelledAll.loadEach [.text "pear", .text "apple"]).run market).2 =
        objects.map (fun object => .ok (some object)) ∧
      ((labelledAll.loadAll .inOrder).run market).2.2 = .ok (.loaded all) ∧ objects.Perm all ∧
      objects.length = 2 ∧
      ((labelledAll.loadEach [.text "pear", .text "apple"]).run market).1.contents =
        ((labelledAll.loadAll .inOrder).run market).1.contents) ∧
    ((labelled.loadById (.text "apple")).run market).2 =
      .error (.failed (labelled.notHere (.text "apple"))) ∧
    ((labelled.loadById (.text "plum")).run market).2 = .ok none := by
  have hfits : ∀ l : Loader Value, l.type.currentVersion = 2 → l.type.VersionsFit := by
    intro l hl
    unfold ObjectType.VersionsFit
    rw [hl]
    decide
  have hload : labelledAll.Loadable (market.contents "fruits") := by
    intro d hd
    rw [documents_market] at hd
    rcases List.mem_pair.mp hd with rfl | rfl <;> exact ⟨_, _, _, rfl, rfl, rfl⟩
  obtain ⟨heach, -, -, -⟩ := loads_by_identity_agree labelledAll rfl rfl rfl (hfits _ rfl)
    inMemory_market keyed_market hload movable_labelledAll .inOrder
  obtain ⟨-, hother, habsent, -⟩ := loads_by_identity_agree labelled rfl rfl rfl (hfits _ rfl)
    inMemory_market keyed_market loadable_labelled movable_labelled .inOrder
  refine ⟨?_, ?_, ?_⟩
  · refine heach [.text "pear", .text "apple"] [grownIn "Chile" "pear", grownIn "Peru" "apple"] ?_
      (List.Perm.swap _ _ [])
    exact .cons ⟨_, rfl, rfl⟩ (.cons ⟨_, rfl, rfl⟩ .nil)
  · obtain ⟨identity, hidentity, hrefused⟩ :=
      hother (grownIn "Peru" "apple") (List.mem_pair.mpr (Or.inl rfl)) rfl
    obtain rfl : .text "apple" = identity := Option.some.inj hidentity
    exact (hrefused _ rfl).1
  · refine (habsent (.text "plum") _ rfl fun d hd => ?_).1
    have hd : d ∈ [grownIn "Peru" "apple", grownIn "Chile" "pear"] := hd
    rcases List.mem_pair.mp hd with rfl | rfl <;> decide

end Load

end StoredObjects
