import StoredObjects.Proofs.Converter.RoundTrip
import StoredObjects.Proofs.Load.ById
import StoredObjects.Proofs.Sync.Blocking

/-! # Reading one's writes

After a batch of which nothing failed, a load by identity gives the object of the last intent about
that identity, exactly as it was in the batch, or nothing when that intent was a removal. Such loads
write nothing, so any number of them can follow one another.
-/

namespace StoredObjects

structure Binding.KeepsValues (b : Binding Value) (property : String) : Prop where
  converter : b.converter = .ofCodec .value property
  ne_identityField : property ≠ Document.identityField
  ne_versionField : property ≠ Document.versionField

/-- What is stored under an identity is nothing, or the object as the type now keeps it. -/
def Binding.Shows {Object : Type} (b : Binding Object) (σ : Contents) (identity : Value) :
    Option Object → Prop
  | none => (σ b.store).find? identity = none
  | some object => ∃ d, (σ b.store).find? identity = some d ∧
      d.version = b.type.currentVersion ∧ b.converter.toObject d = .ok object

def Replica.loadEach {Object : Type} (r : Replica Object) :
    List (String × Value) → Program (List (Except Halt (Option Object)))
  | [] => .done []
  | (name, identity) :: rest => do
    let found ← r.loadById name identity
    return found :: (← r.loadEach rest)

namespace Sync

def Intent.About (property : String → String) (name : String) (identity : Value)
    (i : Intent Value) : Prop :=
  i.typeName = name ∧
    ∃ v, i.object.Identifies (property name) v ∧ v.compact = identity.compact

/-- The last intent of a batch about an identity that is not passed over. -/
def IsLast (bindings : List (Binding Value)) (property : String → String)
    (batch : List (Intent Value)) (identity : Value) (i : Intent Value) : Prop :=
  ∃ before after b, batch = before ++ i :: after ∧
    Binding.find? bindings i.typeName = some b ∧ passedOver (b, i) = false ∧
    i.About property i.typeName identity ∧
    ∀ j ∈ after, j.About property i.typeName identity → passedOver (b, j) = true

end Sync

/-! ## Loads by identity -/

section Loads

variable {Object : Type} {w : World}

theorem Load.Loader.process_of_current {l : Load.Loader Object} {d : Document} {object : Object}
    (hfilter : l.filter = .acceptAll) (hversion : d.version = l.type.currentVersion)
    (hobject : l.binding.converter.toObject d = .ok object) :
    (l.step l.filter).process d = .ok (some ⟨object, none⟩) := by
  apply Step.process_eq_ok_iff.mpr
  refine ⟨d, object, true, ObjectType.upgrade_of_current hversion, hobject, ?_, ?_⟩
  · simp only [step, hfilter, Routing.Filter.accepts]
  · have hcurrent : ¬ d.version < (l.step l.filter).type.currentVersion := by
      simp [step, hversion]
    simp [hcurrent]

theorem Load.Loader.run_loadById {l : Load.Loader Object} {identity : Value}
    {found : Option Object} (hw : w.InMemory) (hfilter : l.filter = .acceptAll)
    (hstored : l.binding.converter.toStored identity = .ok identity)
    (hshows : l.binding.Shows w.contents identity found) :
    (l.loadById identity).run w =
      ((w.answer l.binding.store (.findById identity)).1, .ok found) := by
  cases found with
  | none => exact run_loadById_of_absent hw hstored hshows
  | some object =>
    obtain ⟨d, hfind, hversion, hobject⟩ := hshows
    rw [run_loadById_of_found hw hstored hfind, process_of_current hfilter hversion hobject]
    rfl

theorem Replica.run_loadById {r : Replica Object} (hpartition : r.settings.partition = none)
    (hw : w.InMemory) {name : String} {b : Binding Object}
    (hfind : Binding.find? r.bindings name = some b) {identity : Value} {found : Option Object}
    (hstored : b.converter.toStored identity = .ok identity)
    (hshows : b.Shows w.contents identity found) :
    ((r.loadById name identity).run w).1.contents = w.contents ∧
      ((r.loadById name identity).run w).2 = .ok found := by
  have hloader : r.loader name = .ok ⟨b, r.settings.load, none⟩ := by
    simp only [loader, hfind, hpartition]
  simp only [loadById, hloader]
  rw [Load.Loader.run_loadById hw rfl hstored hshows]
  exact ⟨(World.answer_findById hw b.store identity).1, rfl⟩

theorem Replica.run_loadEach {r : Replica Object} (hpartition : r.settings.partition = none)
    (hw : w.InMemory) {σ : Contents} (hσ : w.contents = σ) {reads : List (String × Value)}
    {found : List (Option Object)}
    (hshows : List.Forall₂ (fun q o => ∃ b, Binding.find? r.bindings q.1 = some b ∧
      b.converter.toStored q.2 = .ok q.2 ∧ b.Shows σ q.2 o) reads found) :
    ((r.loadEach reads).run w).1.contents = σ ∧
      ((r.loadEach reads).run w).2 = found.map .ok := by
  induction hshows generalizing w with
  | nil => exact ⟨hσ, rfl⟩
  | @cons q o reads found hq _ ih =>
    obtain ⟨b, hfind, hstored, hshows⟩ := hq
    obtain ⟨hcontents, hreply⟩ := run_loadById hpartition hw hfind hstored (hσ ▸ hshows)
    obtain ⟨hafter, hreplies⟩ :=
      ih (Program.inMemory_run hw (r.loadById q.1 q.2)) (hcontents.trans hσ)
    have hrun : (r.loadEach (q :: reads)).run w =
        let first := (r.loadById q.1 q.2).run w
        let rest := (r.loadEach reads).run first.1
        (rest.1, first.2 :: rest.2) :=
      (Program.run_bind w (r.loadById q.1 q.2) _).trans (Program.run_bind _ (r.loadEach reads) _)
    rw [hrun, List.map_cons, ← hreply, ← hreplies]
    exact ⟨hafter, rfl⟩

end Loads

/-! ## What a batch leaves -/

theorem Binding.KeepsValues.exists_document {b : Binding Value} {property : String}
    (h : b.KeepsValues property) (hfit : b.type.VersionsFit) {object v : Value}
    (hobject : object.Identifies property v) :
    ∃ d, b.document object = .ok d ∧ d.key? = some v.compact ∧
      d.version = b.type.currentVersion ∧ b.converter.toObject d = .ok object := by
  obtain ⟨d, hd, hidentity, hversion, hback⟩ := Binding.exists_document h.converter
    h.ne_identityField h.ne_versionField hfit hobject rfl
  exact ⟨d, hd, Document.key?_of_identity? hidentity, hversion, hback⟩

namespace Sync

section Applied

variable {Object : Type} {bindings : List (Binding Object)} {batch : List (Intent Object)}

theorem mem_applied_paired {p : Binding Object × Intent Object}
    (hp : p ∈ applied (paired bindings batch)) :
    p.2 ∈ batch ∧ Binding.find? bindings p.2.typeName = some p.1 ∧ passedOver p = false := by
  obtain ⟨hp, hpass⟩ := List.mem_filter.mp hp
  obtain ⟨i, hi, hpair⟩ := List.mem_filterMap.mp hp
  obtain ⟨b, hfind, rfl⟩ := Option.map_eq_some_iff.mp hpair
  exact ⟨hi, hfind, by simpa using hpass⟩

theorem paired_append_cons {before after : List (Intent Object)} {b : Binding Object}
    {i : Intent Object} (hfind : Binding.find? bindings i.typeName = some b) :
    paired bindings (before ++ i :: after) =
      paired bindings before ++ (b, i) :: paired bindings after := by
  simp [paired, hfind]

theorem lastWins_of_no_failure {settings : Settings} {r built : Replica Object}
    (hbuilt : Replica.ofBindings settings r.bindings = .ok built) {w : World} (hw : w.InMemory)
    (hdocs : Writable r.bindings batch) {notices : List Notice} {report : Report}
    (hok : ((r.synchronize batch).run w).2 = (notices, .ok report))
    (hnone : report.failedOperations = 0) :
    LastWins (applied (paired r.bindings batch)) w.contents
      ((r.synchronize batch).run w).1.contents := by
  cases hbound : bound r.bindings batch with
  | error e => simp [Replica.synchronize, synchronize, hbound] at hok
  | ok intents =>
    have hmem := mem_bound hbound
    have hwrite : ∀ p ∈ applied intents, ∃ d k, p.1.document p.2.object = .ok d ∧
        d.key? = some k := by
      intro p hp
      obtain ⟨hp, hpass⟩ := List.mem_filter.mp hp
      exact hdocs p.2 (hmem p hp).1 p.1 (hmem p hp).2 (by simpa using hpass)
    rw [← eq_paired_of_bound hbound]
    simp only [Replica.synchronize, synchronize, hbound] at hok ⊢
    obtain ⟨hcontents, hfail⟩ := effects_of_no_failure hw (keyed_plan hwrite) hok hnone
    obtain ⟨storeOf, hstoreOf⟩ := Replica.exists_storeOf hbuilt
    obtain ⟨hone, heffects⟩ := plan_matches (Waiting.kept_nil storeOf)
      (fun p hp => hstoreOf p.1 (Binding.mem_of_find? (hmem p hp).2)) w.contents hfail
    rw [hcontents, ← heffects]
    exact lastWins_effects hwrite hone

end Applied

section Batch

variable {bindings : List (Binding Value)} {property : String → String}
  {batch : List (Intent Value)}

theorem writable_of_identifies (hkeeps : ∀ b ∈ bindings, b.KeepsValues (property b.type.name))
    (hfit : ∀ b ∈ bindings, b.type.VersionsFit)
    (hobjects : ∀ i ∈ batch, ∃ v, i.object.Identifies (property i.typeName) v) :
    Writable bindings batch := by
  intro i hi b hfind _
  have hb := Binding.mem_of_find? hfind
  obtain ⟨v, hv⟩ := hobjects i hi
  rw [← Binding.name_of_find? hfind] at hv
  obtain ⟨d, hd, hkey, -⟩ := (hkeeps b hb).exists_document (hfit b hb) hv
  exact ⟨d, v.compact, hd, hkey⟩

theorem not_touches_of_last (hwired : Wired bindings)
    (hkeeps : ∀ b ∈ bindings, b.KeepsValues (property b.type.name))
    (hfit : ∀ b ∈ bindings, b.type.VersionsFit)
    (hobjects : ∀ i ∈ batch, ∃ v, i.object.Identifies (property i.typeName) v)
    {b : Binding Value} (hb : b ∈ bindings) {identity : Value}
    (hlast : ∀ j ∈ batch, j.About property b.type.name identity → passedOver (b, j) = true) :
    ∀ q ∈ applied (paired bindings batch), ¬ Touches (b.store, identity.compact) q := by
  rintro ⟨c, j⟩ hq ⟨hstore, d, hd, hkey⟩
  obtain ⟨hj, hfind, hpass⟩ := mem_applied_paired hq
  have hc := Binding.mem_of_find? hfind
  obtain rfl : b = c :=
    hwired.eq_of_collection b hb c hc (hwired.collection_of_store b hb c hc hstore)
  have hname := Binding.name_of_find? hfind
  obtain ⟨v, hv⟩ := hobjects j hj
  rw [← hname] at hv
  obtain ⟨e, he, hekey, -⟩ := (hkeeps b hb).exists_document (hfit b hb) hv
  obtain rfl := Except.ok.inj (hd.symm.trans he)
  have habout : j.About property b.type.name identity :=
    ⟨hname.symm, v, hv, Option.some.inj (hekey.symm.trans hkey)⟩
  rw [hlast j hj habout] at hpass
  cases hpass

/-- The last intent about an identity decides what is stored under it. -/
theorem IsLast.shows (hwired : Wired bindings)
    (hkeeps : ∀ b ∈ bindings, b.KeepsValues (property b.type.name))
    (hfit : ∀ b ∈ bindings, b.type.VersionsFit)
    (hobjects : ∀ i ∈ batch, ∃ v, i.object.Identifies (property i.typeName) v)
    {σ τ : Contents} (hwins : LastWins (applied (paired bindings batch)) σ τ) {identity : Value}
    {i : Intent Value} (hlast : IsLast bindings property batch identity i) :
    ∃ b, Binding.find? bindings i.typeName = some b ∧
      b.Shows τ identity (if i.kind = .remove then none else some i.object) := by
  obtain ⟨before, after, b, rfl, hfind, hpass, ⟨-, v, hv, hcompact⟩, hafter⟩ := hlast
  have hb := Binding.mem_of_find? hfind
  have hname := Binding.name_of_find? hfind
  rw [← hname] at hv hafter
  obtain ⟨d, hd, hkey, hversion, hback⟩ := (hkeeps b hb).exists_document (hfit b hb) hv
  rw [hcompact] at hkey
  have hsplit : applied (paired bindings (before ++ i :: after)) =
      applied (paired bindings before) ++ (b, i) :: applied (paired bindings after) := by
    simp [paired_append_cons hfind, applied, hpass]
  have hleft := hwins.last (b.store, identity.compact) _ (b, i) _ hsplit ⟨rfl, d, hd, hkey⟩
    (not_touches_of_last hwired hkeeps hfit (fun j hj => hobjects j (by simp [hj])) hb hafter)
  refine ⟨b, hfind, ?_⟩
  by_cases hkind : i.kind = .remove
  · simp only [leftBy, if_pos hkind] at hleft ⊢
    exact hleft
  · simp only [leftBy, if_neg hkind, hd] at hleft ⊢
    exact ⟨d, hleft, hversion, hback⟩

end Batch

end Sync

/-- After a batch of which nothing failed, every load by identity gives what the last intent about
that identity asked for, whatever was stored before, and leaves the stores as they are. -/
theorem reads_after_batch {settings : Settings} {bindings : List (Binding Value)}
    {r : Replica Value} (hbuilt : Replica.ofBindings settings bindings = .ok r)
    (hpartition : settings.partition = none) {property : String → String}
    (hkeeps : ∀ b ∈ bindings, b.KeepsValues (property b.type.name))
    (hfit : ∀ b ∈ bindings, b.type.VersionsFit) {w : World} (hw : w.InMemory)
    (hhosts : Sync.Hosts w bindings) {batch : List (Sync.Intent Value)}
    (hobjects : ∀ i ∈ batch, ∃ v, i.object.Identifies (property i.typeName) v)
    {notices : List Sync.Notice} {report : Sync.Report}
    (hok : ((r.synchronize batch).run w).2 = (notices, .ok report))
    (hnone : report.failedOperations = 0) {reads : List (Value × Sync.Intent Value)}
    (hreads : ∀ q ∈ reads, Sync.IsLast bindings property batch q.1 q.2) :
    let left := ((r.synchronize batch).run w).1
    let answered := (r.loadEach (reads.map fun q => (q.2.typeName, q.1))).run left
    answered.1.contents = left.contents ∧
      answered.2 = reads.map fun q =>
        .ok (if q.2.kind = .remove then none else some q.2.object) := by
  intro left answered
  obtain ⟨hsettings, rfl, -⟩ := Replica.eq_of_ofBindings hbuilt
  have hwired := Sync.wired_of_ofBindings hbuilt hhosts
  have hdocs := Sync.writable_of_identifies hkeeps hfit hobjects
  have hwins := Sync.lastWins_of_no_failure hbuilt hw hdocs hok hnone
  have hshows : List.Forall₂ (fun q o => ∃ b, Binding.find? r.bindings q.1 = some b ∧
      b.converter.toStored q.2 = .ok q.2 ∧ b.Shows left.contents q.2 o)
      (reads.map fun q => (q.2.typeName, q.1))
      (reads.map fun q => if q.2.kind = .remove then none else some q.2.object) := by
    rw [List.forall₂_map_left_iff, List.forall₂_map_right_iff, List.forall₂_same]
    intro q hq
    obtain ⟨b, hfind, hshown⟩ := (hreads q hq).shows hwired hkeeps hfit hobjects hwins
    refine ⟨b, hfind, ?_, hshown⟩
    rw [(hkeeps b (Binding.mem_of_find? hfind)).converter]
    rfl
  obtain ⟨hcontents, hreplies⟩ := Replica.run_loadEach (by rw [hsettings, hpartition])
    (Program.inMemory_run hw (r.synchronize batch)) rfl hshows
  rw [List.map_map] at hreplies
  exact ⟨hcontents, hreplies⟩

/-! The pear waited for the apple's insert, and the apple was removed behind both. -/

theorem identifies_fruit (name : String) : (Sync.fruit name).Identifies "name" (.text name) := by
  refine ⟨TextMap.ofList [("name", .text name)], rfl, ?_, ?_, ?_, rfl⟩
  · rfl
  · rfl
  · rfl

theorem eq_of_about_fruit {kind : Sync.Kind} {fruit name : String} {identity : Value}
    (h : (Sync.fruitIntent kind fruit).About (fun _ => "name") name identity) :
    name = "Fruit" ∧ Value.compact (.text fruit) = identity.compact := by
  obtain ⟨hname, v, hv, hcompact⟩ := h
  rw [hv.unique (identifies_fruit fruit)] at hcompact
  exact ⟨hname.symm, hcompact⟩

theorem harvest_reads_back :
    ∃ r report, Replica.ofBindings { sync := { transientPatterns := [] } } Sync.orchard.bindings =
        .ok r ∧
      let (left, answer) := (r.synchronize Sync.harvest).run ⟨.empty⟩
      let answered := (r.loadEach
        [("Fruit", .text "pear"), ("Fruit", .text "apple"), ("Grower", .text "Ann")]).run left
      answer.2 = .ok report ∧ report.failedOperations = 0 ∧
        answered.1.contents = left.contents ∧
        answered.2 = [.ok (some (Sync.fruit "pear")), .ok none, .ok (some (Sync.fruit "Ann"))] := by
  let r : Replica Value :=
    { Sync.orchard with
      settings := { sync := { transientPatterns := [] } }
      registry := ⟨[fruitType, Sync.growers.type]⟩ }
  let ann : Sync.Intent Value := { Sync.fruitIntent .insert "Ann" with typeName := "Grower" }
  have hbuilt : Replica.ofBindings { sync := { transientPatterns := [] } } Sync.orchard.bindings =
      .ok r := rfl
  have hok : ((r.synchronize Sync.harvest).run ⟨.empty⟩).2 =
      ([], .ok { inserted := 3, insertBatches := 2, updated := 1, removed := 1 }) := rfl
  have hkeeps : ∀ b ∈ Sync.orchard.bindings, b.KeepsValues "name" := by
    intro b hb
    rcases List.mem_pair.mp hb with rfl | rfl <;> exact ⟨rfl, by decide, by decide⟩
  have hfit : ∀ b ∈ Sync.orchard.bindings, b.type.VersionsFit := by
    intro b hb
    rcases List.mem_pair.mp hb with rfl | rfl <;>
      · change 2 < 0x100000000
        decide
  have hhosts : Sync.Hosts ⟨.empty⟩ Sync.orchard.bindings := by
    intro b hb
    rcases List.mem_pair.mp hb with rfl | rfl <;> rfl
  have hobjects : ∀ i ∈ Sync.harvest, ∃ v, i.object.Identifies "name" v := by
    intro i hi
    simp only [Sync.harvest, List.mem_cons, List.not_mem_nil, or_false] at hi
    rcases hi with rfl | rfl | rfl | rfl | rfl <;> exact ⟨_, identifies_fruit _⟩
  have hreads : ∀ q ∈ [(.text "pear", Sync.fruitIntent .insert "pear"),
      (.text "apple", Sync.fruitIntent .remove "apple"), (.text "Ann", ann)],
      Sync.IsLast Sync.orchard.bindings (fun _ => "name") Sync.harvest q.1 q.2 := by
    intro q hq
    simp only [List.mem_cons, List.not_mem_nil, or_false] at hq
    rcases hq with rfl | rfl | rfl
    · refine ⟨[_, _], [_, _], fruits, rfl, rfl, rfl, ⟨rfl, _, identifies_fruit _, rfl⟩, ?_⟩
      intro j hj habout
      rcases List.mem_pair.mp hj with rfl | rfl <;>
        exact absurd (eq_of_about_fruit habout).2 (by decide)
    · refine ⟨[_, _, _, _], [], fruits, rfl, rfl, rfl, ⟨rfl, _, identifies_fruit _, rfl⟩, ?_⟩
      intro j hj
      cases hj
    · refine ⟨[_], [_, _, _], Sync.growers, rfl, rfl, rfl, ⟨rfl, _, identifies_fruit _, rfl⟩, ?_⟩
      intro j hj habout
      simp only [List.mem_cons, List.not_mem_nil, or_false] at hj
      rcases hj with rfl | rfl | rfl <;> exact absurd (eq_of_about_fruit habout).1 (by decide)
  obtain ⟨hcontents, hanswers⟩ := reads_after_batch hbuilt rfl hkeeps hfit Sync.inMemory_empty
    hhosts hobjects hok rfl hreads
  exact ⟨r, _, hbuilt, congrArg Prod.snd hok, rfl, hcontents, hanswers⟩

end StoredObjects
