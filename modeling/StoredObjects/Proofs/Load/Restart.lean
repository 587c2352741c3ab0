import Mathlib.Data.List.Perm.Subperm
import StoredObjects.Proofs.Load.Wanted

/-! # Loads that are cut off

A load that fails while it writes back leaves some of the wanted documents exchanged and others not.
Every document keeps its object and its owner on the way to its current form, so that the next load
has the same objects and finishes the work. From then on there is nothing left to write.
-/

namespace StoredObjects

namespace Load

variable {Object : Type}

namespace Loader

variable {l : Loader Object} {c : Collection} {w : World} {schedule : Schedule}
  {S : Document → Prop}

/-- What a load can leave behind that was cut off while it wrote back: some of its replacements, it
does not matter which, took effect, and nothing else did. -/
structure CutOff (l : Loader Object) (w w₁ : World) : Prop where
  included : l.type.excludedFromLoad = false
  inMemory : w₁.InMemory
  written : ∃ schedule made c₁,
    made.Subperm (l.rewrites schedule (w.contents l.binding.store).documents) ∧
      (w.contents l.binding.store).rewrite made = .ok c₁ ∧
      w₁.contents = Function.update w.contents l.binding.store c₁

def repeatedly (l : Loader Object) :
    List Schedule → Program (List (Option Report × Except Failure (Full Object)))
  | [] => .done []
  | schedule :: rest =>
    (l.loadAll schedule).bind fun r => (repeatedly l rest).bind fun rs => .done (r :: rs)

theorem run_repeatedly_cons (l : Loader Object) (schedule : Schedule) (rest : List Schedule)
    (w : World) :
    (l.repeatedly (schedule :: rest)).run w =
      (((l.repeatedly rest).run ((l.loadAll schedule).run w).1).1,
        ((l.loadAll schedule).run w).2 ::
          ((l.repeatedly rest).run ((l.loadAll schedule).run w).1).2) := by
  rw [repeatedly, Program.run_bind, Program.run_bind]
  rfl

/-! ## Loads with a failing call -/

theorem runFailing_writeBack {store : String} {us : List Upgrade} {c' : Collection}
    (hw : w.InMemory) (h : (w.contents store).rewrite us = .ok c') (n : Nat) (e : Failure) :
    ((writeBack store us).runFailing n e w).1.InMemory ∧ ∃ made c₁, made.Sublist us ∧
      (w.contents store).rewrite made = .ok c₁ ∧
      ((writeBack store us).runFailing n e w).1.contents =
        Function.update w.contents store c₁ := by
  induction us generalizing n w with
  | nil =>
    refine ⟨hw, [], w.contents store, .slnil, rfl, ?_⟩
    exact (Function.update_eq_self store w.contents).symm
  | cons u us ih =>
    cases n with
    | zero =>
      refine ⟨hw.noteFailed store (.replace u.old u.new), [], w.contents store,
        List.nil_sublist _, rfl, ?_⟩
      exact (World.contents_noteFailed w store (.replace u.old u.new)).trans
        (Function.update_eq_self store w.contents).symm
    | succ n =>
      rw [Collection.rewrite_cons] at h
      cases hr : (w.contents store).replace u.old u.new with
      | error f =>
        rw [hr] at h
        cases h
      | ok c₂ =>
        rw [hr] at h
        obtain ⟨hmem, hcontents, hreply⟩ := World.answer_replace hw hr
        have hstore : (w.answer store (.replace u.old u.new)).1.contents store = c₂ := by
          rw [hcontents]
          exact Function.update_self ..
        obtain ⟨hmem', made, c₁, hmade, hrewrite, hend⟩ := ih hmem (hstore ▸ h) n
        rw [writeBack, Program.runFailing_call_succ, hreply]
        refine ⟨hmem', u :: made, c₁, hmade.cons_cons u, ?_, ?_⟩
        · rw [Collection.rewrite_cons, hr]
          exact hstore ▸ hrewrite
        · exact hend.trans (by rw [hcontents, Function.update_idem])

/-- A load of documents that can be loaded is cut off by a failing call wherever that comes. -/
theorem cutOff_of_runFailing (hwrite : l.type.writeBack = true) (hrouted : l.type.routed = false)
    (hexcluded : l.type.excludedFromLoad = false) (hw : w.InMemory)
    (hsucceeds : ∃ c', l.Succeeds schedule w (w.contents l.binding.store).documents c')
    (n : Nat) (e : Failure) : l.CutOff w ((l.loadAll schedule).runFailing n e w).1 := by
  obtain ⟨c', -, hdecides, hrewrite⟩ := hsucceeds
  have hanswer := Store.answers_findAll (hw l.binding.store)
  have hread : (w.answer l.binding.store .findAll).1.contents = w.contents :=
    (World.contents_answer hanswer).trans (Function.update_eq_self l.binding.store w.contents)
  have hreply := World.reply_answer hanswer
  rw [loadAll_eq hwrite hexcluded, Program.runFailing_map]
  unfold loadEagerly
  rw [openReading_of_not_routed hrouted]
  cases n with
  | zero =>
    refine ⟨hexcluded, hw.noteFailed l.binding.store .findAll, schedule, [],
      w.contents l.binding.store, List.nil_subperm, rfl, ?_⟩
    exact (World.contents_noteFailed w l.binding.store .findAll).trans
      (Function.update_eq_self l.binding.store w.contents).symm
  | succ n =>
    have hpossible : ((w.answer l.binding.store .findAll).1.contents l.binding.store).rewrite
        (l.rewrites schedule (w.contents l.binding.store).documents) = .ok c' := by
      rw [hread]
      exact hrewrite
    obtain ⟨hmem, made, c₁, hmade, hwritten, hend⟩ :=
      runFailing_writeBack (hw.answer l.binding.store .findAll) hpossible n e
    rw [hread] at hwritten hend
    rw [Program.perform, Program.bind_call, Program.runFailing_call_succ, hreply,
      Program.bind_done]
    change l.CutOff w ((l.loadReading schedule l.filter ((w.contents
      l.binding.store).documents.map .value)).runFailing n e
        (w.answer l.binding.store .findAll).1).1
    rw [loadReading_eq hdecides, Program.runFailing_map]
    exact ⟨hexcluded, hmem, schedule, made, c₁, hmade.subperm, hwritten, hend⟩

/-! ## Loads of what is left behind -/

theorem decides_of_loaded (hwrite : l.type.writeBack = true) (hrouted : l.type.routed = false)
    (hexcluded : l.type.excludedFromLoad = false) (hw : w.InMemory) {objects : List Object}
    (h : ((l.loadAll schedule).run w).2.2 = .ok (.loaded objects)) :
    l.Decides (w.contents l.binding.store).documents := by
  obtain ⟨raws, c', hsucceeds, -⟩ := succeeds_of_loaded hwrite hexcluded hw h
  have hsource := hsucceeds.source
  rw [source_of_not_routed hrouted] at hsource
  obtain rfl := Except.ok.inj hsource
  exact hsucceeds.decides

section Again

variable (hwrite : l.type.writeBack = true) (hrouted : l.type.routed = false)
  (hexcluded : l.type.excludedFromLoad = false) (ht : l.type.VersionsFit) (hkeyed : c.Keyed)
  (hj : l.Judges c l.wants) (hm : Movable l.type c fun d => l.wants d = true)

include ht hkeyed hj hm in
theorem upgraded_of_subperm {made : List Upgrade} {c₁ : Collection}
    (hmade : made.Subperm (l.rewrites schedule c.documents)) (hrewrite : c.rewrite made = .ok c₁) :
    ∃ S : Document → Prop, (∀ d ∈ c.documents, S d → l.wants d = true) ∧
      Upgraded l.type c S c₁ := by
  have hwanted : ∀ u ∈ made, u.old ∈ c.documents ∧ l.wants u.old = true ∧
      u.new = l.type.latest u.old := by
    intro u hu
    obtain ⟨hd, -, hwants, hnew⟩ :=
      ((upgraded_refl hkeyed).mem_rewrites hj ht schedule).mp (hmade.subset hu)
    exact ⟨hd, hwants, hnew⟩
  have hnodup : (made.map Upgrade.old).Nodup := by
    obtain ⟨made', hperm, hsub⟩ := hmade
    have hall := Loader.nodup_rewrites (l := l) schedule hkeyed.nodup_documents
    exact ((hperm.map Upgrade.old).nodup_iff).mp (hall.sublist (hsub.map Upgrade.old))
  obtain ⟨c₂, hrewrite', hend⟩ := (upgraded_refl hkeyed).rewrite hkeyed hm
    (fun _ _ h => h.elim) hnodup (by
      intro u hu
      obtain ⟨hd, hwants, hnew⟩ := hwanted u hu
      exact ⟨hd, hwants, not_false, hnew⟩)
  obtain rfl := Except.ok.inj (hrewrite.symm.trans hrewrite')
  refine ⟨_, ?_, hend⟩
  intro d _ hd
  rcases hd with hd | hd
  · exact hd.elim
  · obtain ⟨u, hu, rfl⟩ := List.mem_map.mp hd
    exact (hwanted u hu).2.1

include hwrite hrouted hexcluded ht hkeyed hj hm in
/-- Whatever was exchanged before, a load has the same objects and leaves the same collection. -/
theorem run_loadAll_of_upgraded (hw : w.InMemory)
    (h : Upgraded l.type c S (w.contents l.binding.store))
    (hSW : ∀ d ∈ c.documents, S d → l.wants d = true) (schedule : Schedule) :
    ((l.loadAll schedule).run w).1.InMemory ∧
      (∃ c', ((l.loadAll schedule).run w).1.contents =
          Function.update w.contents l.binding.store c' ∧
        Upgraded l.type c (fun d => l.wants d = true) c') ∧
      ∃ objects, ((l.loadAll schedule).run w).2.2 = .ok (.loaded objects) ∧
        objects.Perm ((c.documents.filter l.wants).filterMap
          (served l.type l.binding.converter)) := by
  obtain ⟨c', hsucceeds, hend, hobjects⟩ := h.load_of_movable hkeyed hm hj (fun _ h => h) hSW ht
    (source_of_not_routed hrouted) schedule rfl
  obtain ⟨hmem, hcontents, hloaded⟩ := run_loadAll_of_succeeds hwrite hexcluded hw hsucceeds
  refine ⟨hmem, ⟨c', hcontents, hend.congr fun d hd => Or.inl ?_⟩, _, hloaded, hobjects⟩
  constructor
  · intro hor
    exact hor.elim (hSW d hd) id
  · exact Or.inr

include ht hj in
theorem rewrites_of_settled
    (h : Upgraded l.type c (fun d => l.wants d = true) (w.contents l.binding.store))
    (schedule : Schedule) :
    l.rewrites schedule (w.contents l.binding.store).documents = [] := by
  apply List.eq_nil_iff_forall_not_mem.mpr
  intro u hu
  obtain ⟨hd, hold, hwants, -⟩ := (h.mem_rewrites hj ht schedule).mp hu
  exact (h.of_outdated hj ht hd hold).2 hwants

include hwrite hrouted hexcluded ht hkeyed hj hm in
/-- Where everything that is wanted is in its current form, a load only reads. -/
theorem run_loadAll_of_settled (hw : w.InMemory)
    (h : Upgraded l.type c (fun d => l.wants d = true) (w.contents l.binding.store))
    (schedule : Schedule) :
    ((l.loadAll schedule).run w).1.contents = w.contents ∧
      ((l.loadAll schedule).run w).1.journal = Function.update w.journal l.binding.store
        (w.journal l.binding.store ++ [.findAll]) ∧
      ∃ objects report, ((l.loadAll schedule).run w).2 = (some report, .ok (.loaded objects)) ∧
        objects.Perm ((c.documents.filter l.wants).filterMap
          (served l.type l.binding.converter)) ∧
        report.patched = 0 ∧ report.writtenBack = 0 ∧ report.typeName = l.type.name := by
  obtain ⟨c', hsucceeds, -, hobjects⟩ := h.load_of_movable hkeyed hm hj (fun _ h => h)
    (fun _ _ h => h) ht (source_of_not_routed hrouted) schedule rfl
  obtain ⟨-, hcontents, hloaded⟩ := run_loadAll_of_succeeds hwrite hexcluded hw hsucceeds
  have hreport := report_loadAll_of_succeeds hwrite hexcluded hw hsucceeds
  have hnothing := rewrites_of_settled ht hj h schedule
  have hsame : c' = w.contents l.binding.store := by
    have hrewrite := hsucceeds.rewrite
    rw [hnothing] at hrewrite
    exact (Except.ok.inj hrewrite).symm
  have hpatched : (l.outcome schedule (w.contents l.binding.store).documents).upgrades.length =
      0 := by
    rw [← (arrange_perm schedule.written l.settings.workers 0 _).length_eq]
    exact congrArg List.length hnothing
  refine ⟨?_, ?_, _, _, Prod.ext hreport hloaded, hobjects, hpatched, hpatched, rfl⟩
  · rw [hcontents, hsame]
    exact Function.update_eq_self l.binding.store w.contents
  · rw [run_loadAll hwrite hexcluded, run_loadEagerly hw (source_of_not_routed hrouted),
      run_loadReading (h.decides hj ht), hnothing, openReading_of_not_routed hrouted]
    exact World.journal_answer hw l.binding.store .findAll

include hwrite hrouted hexcluded ht hkeyed hj hm in
theorem run_repeatedly_of_settled (hw : w.InMemory)
    (h : Upgraded l.type c (fun d => l.wants d = true) (w.contents l.binding.store))
    (schedules : List Schedule) :
    ((l.repeatedly schedules).run w).1.contents = w.contents ∧
      ((l.repeatedly schedules).run w).1.journal = Function.update w.journal l.binding.store
        (w.journal l.binding.store ++ List.replicate schedules.length .findAll) ∧
      ((l.repeatedly schedules).run w).2.length = schedules.length ∧
      ∀ r ∈ ((l.repeatedly schedules).run w).2, ∃ objects report,
        r = (some report, .ok (.loaded objects)) ∧
        objects.Perm ((c.documents.filter l.wants).filterMap
          (served l.type l.binding.converter)) ∧
        report.patched = 0 ∧ report.writtenBack = 0 := by
  induction schedules generalizing w with
  | nil => exact ⟨rfl, by simp [repeatedly], rfl, fun r hr => by cases hr⟩
  | cons schedule rest ih =>
    obtain ⟨hmem, -, -⟩ := run_loadAll_of_upgraded hwrite hrouted hexcluded ht hkeyed hj hm hw h
      (fun _ _ h => h) schedule
    obtain ⟨hcontents, hjournal, objects, report, hloaded, hperm, hpatched, hwritten, -⟩ :=
      run_loadAll_of_settled hwrite hrouted hexcluded ht hkeyed hj hm hw h schedule
    obtain ⟨hcontents', hjournal', hlength, hall⟩ := ih hmem (hcontents.symm ▸ h)
    rw [run_repeatedly_cons]
    refine ⟨hcontents'.trans hcontents, ?_, congrArg (· + 1) hlength, ?_⟩
    · rw [hjournal', hjournal, Function.update_idem, Function.update_self, List.append_assoc]
      rfl
    · intro r hr
      rcases List.mem_cons.mp hr with rfl | hr
      · exact ⟨objects, report, hloaded, hperm, hpatched, hwritten⟩
      · exact hall r hr

end Again

end Loader

/-- A failing call cuts a load off. The next load has the objects of an undisturbed load and leaves
its contents, whatever was written before. Every further load has these objects too, and reads
without writing; a replica that loads once more reports no patches. -/
theorem cut_off_load_restarts (l : Loader Object) (hwrite : l.type.writeBack = true)
    (hrouted : l.type.routed = false) (ht : l.type.VersionsFit) {w : World} (hw : w.InMemory)
    (hkeyed : (w.contents l.binding.store).Keyed)
    (hmove : Movable l.type (w.contents l.binding.store) fun d => l.wants d = true)
    {schedule : Schedule} {objects : List Object}
    (hundisturbed : ((l.loadAll schedule).run w).2.2 = .ok (.loaded objects)) :
    (∀ schedule' n e f, ((l.loadAll schedule').runFailing n e w).2.2 = .error f →
      l.CutOff w ((l.loadAll schedule').runFailing n e w).1) ∧
    ∀ w₁, l.CutOff w w₁ → ∀ schedule₁,
      let again := (l.loadAll schedule₁).run w₁
      (∃ objects₁, again.2.2 = .ok (.loaded objects₁) ∧ objects₁.Perm objects) ∧
      again.1.contents = ((l.loadAll schedule).run w).1.contents ∧
      ∀ schedules, let further := (l.repeatedly schedules).run again.1
        further.1.contents = again.1.contents ∧
        further.1.journal = Function.update again.1.journal l.binding.store
          (again.1.journal l.binding.store ++ List.replicate schedules.length .findAll) ∧
        further.2.length = schedules.length ∧
        (∀ r ∈ further.2, ∃ objects' report, r = (some report, .ok (.loaded objects')) ∧
          objects'.Perm objects ∧ report.patched = 0 ∧ report.writtenBack = 0) ∧
        ∀ (r : Replica Object) (name : String), r.loader name = .ok l → ∀ schedule₂,
          let last := (r.loadAll schedule₂ name).run further.1
          ∃ objects' report, last.2.2 = .ok (.loaded objects') ∧ objects'.Perm objects ∧
            last.2.1.lastReport? name = some report ∧
            report.patched = 0 ∧ report.writtenBack = 0 := by
  by_cases hexcluded : l.type.excludedFromLoad = true
  · constructor
    · intro schedule' n e f hstop
      simp only [Loader.loadAll, hexcluded, if_true] at hstop
      cases hstop
    · intro w₁ hcut
      rw [hcut.included] at hexcluded
      cases hexcluded
  have hexcluded : l.type.excludedFromLoad = false := by simpa using hexcluded
  have hdecides := Loader.decides_of_loaded hwrite hrouted hexcluded hw hundisturbed
  have hj := (Loader.loadable_iff_decides.mpr hdecides).judges
  have hstart := upgraded_refl (t := l.type) hkeyed
  obtain ⟨-, ⟨c₁, hcontents, hend⟩, objects', hloaded, hobjects⟩ :=
    Loader.run_loadAll_of_upgraded hwrite hrouted hexcluded ht hkeyed hj hmove hw hstart
      (fun _ _ h => h.elim) schedule
  obtain rfl : objects' = objects := by
    rw [hloaded] at hundisturbed
    cases hundisturbed
    rfl
  constructor
  · intro schedule' n e f _
    obtain ⟨c', hsucceeds, -⟩ := hstart.load_of_movable hkeyed hmove hj (fun _ h => h)
      (fun _ _ h => h.elim) ht (Loader.source_of_not_routed hrouted) schedule' rfl
    exact Loader.cutOff_of_runFailing hwrite hrouted hexcluded hw ⟨c', hsucceeds⟩ n e
  · intro w₁ hcut schedule₁ again
    obtain ⟨schedule', made, c₀, hmade, hwritten, hleft⟩ := hcut.written
    obtain ⟨S, hSW, hS⟩ := Loader.upgraded_of_subperm ht hkeyed hj hmove hmade hwritten
    have hstore : w₁.contents l.binding.store = c₀ := by
      rw [hleft]
      exact Function.update_self ..
    obtain ⟨hmem, ⟨c₂, hcontents₂, hend₂⟩, objects₂, hloaded₂, hobjects₂⟩ :=
      Loader.run_loadAll_of_upgraded hwrite hrouted hexcluded ht hkeyed hj hmove hcut.inMemory
        (hstore.symm ▸ hS) hSW schedule₁
    have hsettled : Upgraded l.type (w.contents l.binding.store) (fun d => l.wants d = true)
        (again.1.contents l.binding.store) := by
      rw [hcontents₂, Function.update_self]
      exact hend₂
    refine ⟨⟨objects₂, hloaded₂, hobjects₂.trans hobjects.symm⟩, ?_, ?_⟩
    · rw [hcontents₂, hcontents, hleft, Function.update_idem, hend₂.unique hend]
    · intro schedules further
      obtain ⟨hsame, hjournal, hlength, hall⟩ := Loader.run_repeatedly_of_settled hwrite hrouted
        hexcluded ht hkeyed hj hmove hmem hsettled schedules
      refine ⟨hsame, hjournal, hlength, ?_, ?_⟩
      · intro r hr
        obtain ⟨objects₃, report, hr, hperm, hnothing⟩ := hall r hr
        exact ⟨objects₃, report, hr, hperm.trans hobjects.symm, hnothing⟩
      · intro r name hl schedule₂ last
        have hmem₃ := Program.inMemory_run hmem (l.repeatedly schedules)
        obtain ⟨-, -, objects₃, report, hloaded₃, hperm, hpatched, hwritten, hname⟩ :=
          Loader.run_loadAll_of_settled hwrite hrouted hexcluded ht hkeyed hj hmove hmem₃
            (hsame.symm ▸ hsettled) schedule₂
        obtain ⟨-, hresult, hlast, -⟩ := Replica.reported_loadAll hl hloaded₃ hname
        exact ⟨objects₃, report, hresult, hperm.trans hobjects.symm, hlast, hpatched, hwritten⟩

/-! Both fruits get new identities, and the store is down when the pear is to be written. -/

def labelledAll : Loader Value := { labelled with partition := none }

theorem movable_labelledAll :
    Movable labelledAll.type (market.contents "fruits") fun d => labelledAll.wants d = true := by
  constructor
  · intro d hd _
    rw [documents_market] at hd
    rcases List.mem_pair.mp hd with rfl | rfl <;> exact ⟨_, rfl⟩
  · intro d hd _ e he _ heq
    have hne : (labelledAll.type.latest (grownIn "Peru" "apple")).key? ≠
        (labelledAll.type.latest (grownIn "Chile" "pear")).key? := by decide
    rw [documents_market] at hd he
    rcases List.mem_pair.mp hd with rfl | rfl <;> rcases List.mem_pair.mp he with rfl | rfl
    · rfl
    · exact absurd heq hne
    · exact absurd heq.symm hne
    · rfl
  · intro d hd _ k hk
    rw [documents_market] at hd
    rcases List.mem_pair.mp hd with rfl | rfl <;> obtain rfl := Option.some.inj hk <;>
      exact Or.inr rfl

/-- The apple has moved and the pear has not, and the next load makes up for it. -/
theorem labelled_pear_follows :
    let cut := (labelledAll.loadAll .inOrder).runFailing 2 (.connectivity "down") market
    cut.2.2 = .error (.connectivity "down") ∧
      (cut.1.contents.at? ("fruits", "\"apple\"")).isSome = false ∧
      (cut.1.contents.at? ("fruits", "\"pear\"")).isSome = true ∧
      ((labelledAll.loadAll .inOrder).run cut.1).1.contents =
        ((labelledAll.loadAll .inOrder).run market).1.contents := by
  intro cut
  have hfits : labelledAll.type.VersionsFit := by
    unfold ObjectType.VersionsFit
    decide
  have hload : labelledAll.Loadable (market.contents "fruits") := by
    intro d hd
    rw [documents_market] at hd
    rcases List.mem_pair.mp hd with rfl | rfl <;> exact ⟨_, _, _, rfl, rfl, rfl⟩
  obtain ⟨-, -, objects, hundisturbed, -⟩ := Loader.run_loadAll_of_upgraded rfl rfl rfl hfits
    keyed_market hload.judges movable_labelledAll inMemory_market (upgraded_refl keyed_market)
    (fun _ _ h => h.elim) .inOrder
  obtain ⟨hcut, hagain⟩ := cut_off_load_restarts labelledAll rfl rfl hfits inMemory_market
    keyed_market movable_labelledAll hundisturbed
  have hstop : cut.2.2 = .error (.connectivity "down") := by
    have hdown : (match cut.2.2 with
      | .ok _ => false
      | .error f => f == .connectivity "down") = true := by decide +kernel
    cases hr : cut.2.2 with
    | ok full =>
      rw [hr] at hdown
      cases hdown
    | error f =>
      rw [hr] at hdown
      exact congrArg Except.error (beq_iff_eq.mp hdown)
  have hcutOff : labelledAll.CutOff market cut.1 :=
    hcut .inOrder 2 (.connectivity "down") (.connectivity "down") hstop
  exact ⟨hstop, by decide +kernel, by decide +kernel, (hagain cut.1 hcutOff .inOrder).2.1⟩

end Load

end StoredObjects
