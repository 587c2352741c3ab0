import StoredObjects.Proofs.Load.ById

/-! # Loads that fail

Every document that a load reads is upgraded, converted and decided on before any is written back. A
single document for which that fails, wherever it stands, therefore leaves everything as it was: the
load has read from one store, and nothing else. A load by identity writes one document, so that its
failure leaves everything as it was in any case.
-/

namespace StoredObjects

namespace World

variable {w : World}

/-- All that happened from `w` to `w'` is one reading from a store. -/
structure ReadOnce (store : String) (w w' : World) : Prop where
  contents : w'.contents = w.contents
  journal : ∃ c : Call, c.writes = false ∧
    w'.journal = Function.update w.journal store (w.journal store ++ [c])

theorem InMemory.readOnce (hw : w.InMemory) (store : String) (c : Call) (hc : c.writes = false) :
    ReadOnce store w (w.answer store c).1 := by
  refine ⟨?_, c, hc, journal_answer hw store c⟩
  have hsame := Function.update_eq_self store w.contents
  cases c with
  | findAll => exact (contents_answer (Store.answers_findAll (hw store))).trans hsame
  | findShare share =>
    exact (contents_answer (Store.answers_findShare (hw store) share)).trans hsame
  | findById identity => exact (answer_findById hw store identity).1
  | findByQuery q => exact (answer_findByQuery hw store q).1
  | _ => cases hc

end World

namespace Load

variable {Object : Type}

inductive Step.Fails (step : Step Object) (raw : Document) : Prop where
  /-- Its version is not known, or a patch fails. -/
  | upgrade {halt : Halt} (h : step.type.upgrade raw = .error halt)
  /-- No object can be made of its current form. -/
  | object {d : Document} {halt : Halt} (hupgrade : step.type.upgrade raw = .ok d)
      (h : step.converter.toObject d = .error halt)
  /-- The filter cannot decide on its current form. -/
  | decision {d : Document} {object : Object} {e : Failure}
      (hupgrade : step.type.upgrade raw = .ok d)
      (hobject : step.converter.toObject d = .ok object)
      (h : step.filter.accepts d object = .error e)

theorem Step.fails_iff {step : Step Object} {raw : Document} :
    step.Fails raw ↔ ∃ halt, step.process raw = .error halt := by
  constructor
  · intro hfails
    cases hprocess : step.process raw with
    | error halt => exact ⟨halt, rfl⟩
    | ok r =>
      obtain ⟨d, object, b, hupgrade, hobject, hdecision, -⟩ := process_eq_ok_iff.mp hprocess
      cases hfails with
      | upgrade h => cases hupgrade.symm.trans h
      | object hupgrade' h =>
        obtain rfl := Except.ok.inj (hupgrade.symm.trans hupgrade')
        cases hobject.symm.trans h
      | decision hupgrade' hobject' h =>
        obtain rfl := Except.ok.inj (hupgrade.symm.trans hupgrade')
        obtain rfl := Except.ok.inj (hobject.symm.trans hobject')
        cases hdecision.symm.trans h
  · rintro ⟨halt, hprocess⟩
    cases hupgrade : step.type.upgrade raw with
    | error _ => exact .upgrade hupgrade
    | ok d =>
      cases hobject : step.converter.toObject d with
      | error _ => exact .object hupgrade hobject
      | ok object =>
        cases hdecision : step.filter.accepts d object with
        | error _ => exact .decision hupgrade hobject hdecision
        | ok b =>
          have hok := process_eq_ok_iff.mpr ⟨d, object, b, hupgrade, hobject, hdecision, rfl⟩
          cases hprocess.symm.trans hok

namespace Loader

variable {l : Loader Object} {w : World} {raws : List Document} {schedule : Schedule}

theorem not_decides_of_fails (h : ∃ raw ∈ raws, (l.step l.filter).Fails raw) :
    ¬ l.Decides raws := by
  intro hdecides
  obtain ⟨raw, hraw, hfails⟩ := h
  obtain ⟨halt, herror⟩ := Step.fails_iff.mp hfails
  obtain ⟨r, hok⟩ := hdecides raw hraw
  cases herror.symm.trans hok

theorem readOnce_openReading (hw : w.InMemory) :
    World.ReadOnce l.binding.store w (l.openReading.run w).1 := by
  unfold openReading openSource
  split
  · exact hw.readOnce l.binding.store (.findShare _) rfl
  · exact hw.readOnce l.binding.store .findAll rfl

theorem run_loadAll_of_fails (hwrite : l.type.writeBack = true)
    (hexcluded : l.type.excludedFromLoad = false) (hw : w.InMemory)
    (hfails : ∀ raws, l.source (w.contents l.binding.store) = .ok raws →
      ∃ raw ∈ raws, (l.step l.filter).Fails raw) (schedule : Schedule) :
    World.ReadOnce l.binding.store w ((l.loadAll schedule).run w).1 ∧
      ∃ e, ((l.loadAll schedule).run w).2 = (none, .error e) := by
  have hread := readOnce_openReading (l := l) hw
  rw [run_loadAll hwrite hexcluded]
  cases hsource : l.source (w.contents l.binding.store) with
  | error e =>
    have hreply := (run_openReading (l := l) hw).2.2
    rw [hsource] at hreply
    unfold loadEagerly
    rw [Program.bind_eq, Program.run_bind, hreply]
    exact ⟨hread, e, rfl⟩
  | ok raws =>
    have hno := not_decides_of_fails (hfails raws hsource)
    obtain ⟨i, hi⟩ := loadReading_of_not_decides hno schedule
    rw [run_loadEagerly hw hsource, hi]
    exact ⟨hread, l.failure i, rfl⟩

theorem run_loadLike_of_fails (hw : w.InMemory) {template : Object} {q : Query}
    (hq : l.binding.converter.toQuery template = .ok q)
    (hfails : ∃ raw ∈ (w.contents l.binding.store).select q, (l.step l.filter).Fails raw)
    (schedule : Schedule) :
    World.ReadOnce l.binding.store w ((l.loadLike schedule template).run w).1 ∧
      ∃ e, ((l.loadLike schedule template).run w).2 = .error e := by
  obtain ⟨i, hi⟩ := loadReading_of_not_decides (not_decides_of_fails hfails) schedule
  rw [run_loadLike hw hq, hi]
  exact ⟨hw.readOnce l.binding.store (.findByQuery q) rfl, l.failure i, rfl⟩

theorem run_loadById_of_fails (hw : w.InMemory) {v identity : Value} {raw : Document}
    (hstored : l.binding.converter.toStored v = .ok identity)
    (hfind : (w.contents l.binding.store).find? identity = some raw)
    (hfails : (l.step l.filter).Fails raw ∧ (l.step l.filter).process raw ≠ .error .died ∨
      (l.step l.filter).process raw = .ok none) :
    World.ReadOnce l.binding.store w ((l.loadById v).run w).1 ∧
      ∃ e, ((l.loadById v).run w).2 = .error (.failed e) := by
  have hread := hw.readOnce l.binding.store (.findById identity) rfl
  rw [run_loadById_of_found hw hstored hfind]
  rcases hfails with ⟨hfails, hlives⟩ | hrejected
  · obtain ⟨halt, hprocess⟩ := Step.fails_iff.mp hfails
    cases halt with
    | failed e =>
      rw [hprocess]
      exact ⟨hread, e, rfl⟩
    | died => exact absurd hprocess hlives
  · rw [hrejected]
    exact ⟨hread, l.notHere v, rfl⟩

theorem contents_run_writeBack_of_error {store : String} (hw : w.InMemory) {u : Option Upgrade}
    {e : Failure} (h : ((writeBack store u.toList).run w).2 = .error e) :
    ((writeBack store u.toList).run w).1.contents = w.contents := by
  cases u with
  | none => rfl
  | some u =>
    have hanswer := Store.answers_replace (hw store) u.old u.new
    have hcontents := World.contents_answer hanswer
    have hreply := World.reply_answer hanswer
    rw [Option.toList_some, run_writeBack_cons] at h ⊢
    cases hreplace : (w.store store).collection.replace u.old u.new with
    | ok c =>
      rw [hreplace] at hreply
      rw [hreply] at h
      cases h
    | error f =>
      rw [hreplace] at hcontents hreply
      rw [hreply]
      exact hcontents.trans (Function.update_eq_self store w.contents)

theorem contents_run_loadById_of_error (hw : w.InMemory) {v : Value} {halt : Halt}
    (h : ((l.loadById v).run w).2 = .error halt) :
    ((l.loadById v).run w).1.contents = w.contents := by
  cases hstored : l.binding.converter.toStored v with
  | error e => rw [run_loadById_of_unstorable hstored]
  | ok identity =>
    have hread := (World.answer_findById hw l.binding.store identity).1
    cases hfind : (w.contents l.binding.store).find? identity with
    | none =>
      rw [run_loadById_of_absent hw hstored hfind]
      exact hread
    | some raw =>
      rw [run_loadById_of_found hw hstored hfind] at h ⊢
      cases hprocess : (l.step l.filter).process raw with
      | error halt => exact hread
      | ok wanted =>
        cases wanted with
        | none => exact hread
        | some loaded =>
          rw [hprocess] at h
          dsimp only at h ⊢
          cases hwritten : ((writeBack l.binding.store loaded.upgrade.toList).run
              (w.answer l.binding.store (.findById identity)).1).2 with
          | ok u =>
            rw [hwritten] at h
            cases h
          | error f =>
            have hsame := contents_run_writeBack_of_error
              (hw.answer l.binding.store (.findById identity)) hwritten
            exact hsame.trans hread

end Loader

end Load

namespace Replica

open Load in
/-- When a single document fails, or the store cannot select the documents, a load of several ends
in an error, after one reading, and the reports of earlier loads stay. The same goes for a load by
identity whose document fails or does not belong here, unless its task dies, and whatever makes a
load by identity fail, the stores stay as they were. -/
theorem failed_load_leaves_all {Object : Type} {r : Replica Object} {name : String}
    {l : Loader Object} (hl : r.loader name = .ok l) (hwrite : l.type.writeBack = true)
    (hexcluded : l.type.excludedFromLoad = false) {w : World} (hw : w.InMemory) :
    let c := w.contents l.binding.store
    (∀ schedule, (∀ raws, l.source c = .ok raws → ∃ raw ∈ raws, (l.step l.filter).Fails raw) →
      let after := (r.loadAll schedule name).run w
      World.ReadOnce l.binding.store w after.1 ∧ ∃ e, after.2 = (r, .error e)) ∧
    (∀ schedule template q, l.binding.converter.toQuery template = .ok q →
      (∃ raw ∈ c.select q, (l.step l.filter).Fails raw) →
      let after := (r.loadLike schedule name template).run w
      World.ReadOnce l.binding.store w after.1 ∧ ∃ e, after.2 = (r, .error e)) ∧
    ∀ v, let after := (r.loadById name v).run w
      (∀ identity raw, l.binding.converter.toStored v = .ok identity →
        c.find? identity = some raw →
        (l.step l.filter).Fails raw ∧ (l.step l.filter).process raw ≠ .error .died ∨
          (l.step l.filter).process raw = .ok none →
        World.ReadOnce l.binding.store w after.1 ∧ ∃ e, after.2 = .error (.failed e)) ∧
      ∀ e, after.2 = .error (.failed e) → after.1.contents = w.contents := by
  intro c
  refine ⟨fun schedule hfails => ?_, fun schedule template q hq hfails => ?_, fun v => ?_⟩
  · obtain ⟨hread, e, herror⟩ := Loader.run_loadAll_of_fails hwrite hexcluded hw hfails schedule
    rw [run_loadAll hl, herror]
    exact ⟨hread, e, rfl⟩
  · obtain ⟨hread, e, herror⟩ := Loader.run_loadLike_of_fails hw hq hfails schedule
    rw [run_loadLike hl, herror]
    exact ⟨hread, e, rfl⟩
  · rw [loadById_eq hl]
    exact ⟨fun identity raw hstored hfind hfails =>
      Loader.run_loadById_of_fails hw hstored hfind hfails,
      fun e h => Loader.contents_run_loadById_of_error hw h⟩

/-! A fruit of a shape that is not known stands where the pear would move to. -/

def labelledPear : Value := .array [.text "fruit", .text "pear"]

def stranger : Document := (Document.ofIdentity labelledPear).setVersion 3

def crowdedMarket : World :=
  ⟨TextMap.empty.insert "fruits"
    { collection := (Load.market.contents "fruits").put labelledPear.compact stranger
      supply := fun _ => "" }⟩

theorem stranger_stops_loads :
    let all := (Load.labellingReplica.loadAll .inOrder "Fruit").run crowdedMarket
    let like := (Load.labellingReplica.loadLike .inOrder "Fruit"
      (.object [("name", labelledPear)])).run crowdedMarket
    let apple := (Load.labellingReplica.loadById "Fruit" (.text "apple")).run crowdedMarket
    let pear := (Load.labellingReplica.loadById "Fruit" (.text "pear")).run crowdedMarket
    (World.ReadOnce "fruits" crowdedMarket all.1 ∧ ∃ e, all.2 = (Load.labellingReplica, .error e)) ∧
      (World.ReadOnce "fruits" crowdedMarket like.1 ∧
        ∃ e, like.2 = (Load.labellingReplica, .error e)) ∧
      (World.ReadOnce "fruits" crowdedMarket apple.1 ∧ ∃ e, apple.2 = .error (.failed e)) ∧
      pear.2 = .error (.failed (.duplicateDocumentKey "fruits" labelledPear.compact)) ∧
      pear.1.contents = crowdedMarket.contents := by
  have hmem : crowdedMarket.InMemory :=
    World.InMemory.setStore (w := ⟨.empty⟩) (fun _ => ⟨rfl, rfl, rfl⟩) "fruits" ⟨rfl, rfl, rfl⟩
  have hfails : (Load.labelled.step Load.labelled.filter).Fails stranger := .upgrade rfl
  have hl : Load.labellingReplica.loader "Fruit" = .ok Load.labelled := rfl
  obtain ⟨hall, hlike, hid⟩ := failed_load_leaves_all hl rfl rfl hmem
  refine ⟨?_, ?_, ?_, ?_⟩
  · apply hall .inOrder
    intro raws hraws
    obtain rfl := Except.ok.inj hraws
    exact ⟨stranger, .tail _ (.tail _ (.head _)), hfails⟩
  · exact hlike .inOrder _ _ rfl ⟨stranger, .head _, hfails⟩
  · exact (hid (.text "apple")).1 _ (Load.grownIn "Peru" "apple") rfl rfl (Or.inr rfl)
  · have hpear : ((Load.labellingReplica.loadById "Fruit" (.text "pear")).run crowdedMarket).2 =
        .error (.failed (.duplicateDocumentKey "fruits" labelledPear.compact)) := rfl
    exact ⟨hpear, (hid (.text "pear")).2 _ hpear⟩

end Replica

end StoredObjects
