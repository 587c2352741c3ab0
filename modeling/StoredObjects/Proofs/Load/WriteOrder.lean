import StoredObjects.Proofs.Load.PushDown
import StoredObjects.Proofs.Load.Upgraded

/-! # The order of writes

Upgraded documents are written back in the order in which their conversions were done, which is not
fixed. A document that moves to a new identity has to find its place free. Where the place belongs
to a document that moves on itself, it is free only when that one has been written. When the writes
can all be made in one order, they can therefore be made in exactly those orders in which every
document comes after the one whose place it takes, and what they leave is the same.
-/

namespace StoredObjects

/-- No document moves to a place that a later one is still to leave. -/
def Clears (us : List Upgrade) : Prop := us.Pairwise fun u v => u.new.key? ≠ v.old.key?

/-- A document moves to a place that a later one is still to leave. -/
def Blocks (us : List Upgrade) (k : String) : Prop :=
  ∃ u v, [u, v].Sublist us ∧ u.new.key? = some k ∧ v.old.key? = some k

theorem not_clears_of_blocks {us : List Upgrade} {k : String} (h : Blocks us k) : ¬ Clears us := by
  obtain ⟨u, v, hsublist, hu, hv⟩ := h
  intro hclears
  exact List.pairwise_iff_forall_sublist.mp hclears hsublist (hu.trans hv.symm)

theorem Blocks.cons {us : List Upgrade} {k : String} (u : Upgrade) (h : Blocks us k) :
    Blocks (u :: us) k := by
  obtain ⟨v, v', hsublist, hv, hv'⟩ := h
  exact ⟨v, v', hsublist.cons u, hv, hv'⟩

namespace Collection

variable {c c₁ c' : Collection} {u : Upgrade} {us vs : List Upgrade} {k : String}

/-- The old forms are documents of the collection, each of them once. -/
structure Holds (c : Collection) (us : List Upgrade) : Prop where
  stored : ∀ u ∈ us, u.old ∈ c.documents
  nodup : (us.map Upgrade.old).Nodup

/-- There is a place for every new form, if the old forms make way. -/
structure Admits (c : Collection) (us : List Upgrade) : Prop where
  identified : ∀ u ∈ us, ∃ k, u.new.key? = some k
  apart : us.Pairwise fun u v => u.new.key? ≠ v.new.key?
  room : ∀ u ∈ us, ∀ d ∈ c.documents, d.key? = u.new.key? → d ∈ us.map Upgrade.old

/-- The collection `c'` holds the new forms in place of the old ones, and all other documents of
`c`. -/
structure Rewritten (c : Collection) (us : List Upgrade) (c' : Collection) : Prop where
  keyed : c'.Keyed
  name : c'.name = c.name
  mem : ∀ d, d ∈ c'.documents ↔
    d ∈ us.map Upgrade.new ∨ d ∈ c.documents ∧ d ∉ us.map Upgrade.old

theorem Holds.perm (h : c.Holds us) (hperm : us.Perm vs) : c.Holds vs :=
  ⟨fun u hu => h.stored u (hperm.mem_iff.mpr hu), (hperm.map _).nodup_iff.mp h.nodup⟩

theorem Admits.perm (h : c.Admits us) (hperm : us.Perm vs) : c.Admits vs := by
  refine ⟨fun u hu => h.identified u (hperm.mem_iff.mpr hu), ?_, fun u hu d hd hk => ?_⟩
  · exact (hperm.pairwise_iff fun hne => hne.symm).mp h.apart
  · exact (hperm.map _).mem_iff.mp (h.room u (hperm.mem_iff.mpr hu) d hd hk)

/-- The order of the writes does not show in what they leave. -/
theorem Rewritten.unique (h : c.Rewritten us c') (h' : c.Rewritten vs c₁) (hperm : us.Perm vs) :
    c' = c₁ := by
  refine h.keyed.ext h'.keyed (h.name.trans h'.name.symm) fun d => ?_
  rw [h.mem, h'.mem, (hperm.map Upgrade.new).mem_iff, (hperm.map Upgrade.old).mem_iff]

section Step

variable (hc : c.Keyed) (hh : c.Holds (u :: us)) (hx : Exchanged c c₁ u.old u.new)

include hh in
theorem Holds.old_ne {v : Upgrade} (hv : v ∈ us) : v.old ≠ u.old := by
  intro heq
  exact (List.nodup_cons.mp hh.nodup).1 (List.mem_map.mpr ⟨v, hv, heq⟩)

include hh hx in
theorem Holds.exchanged : c₁.Holds us := by
  refine ⟨fun v hv => (hx.mem v.old).mpr (Or.inr ⟨?_, hh.old_ne hv⟩), ?_⟩
  · exact hh.stored v (List.mem_cons_of_mem _ hv)
  · exact (List.nodup_cons.mp hh.nodup).2

include hx in
theorem Admits.exchanged (ha : c.Admits (u :: us)) : c₁.Admits us := by
  obtain ⟨hapart, hrest⟩ := List.pairwise_cons.mp ha.apart
  refine ⟨fun v hv => ha.identified v (List.mem_cons_of_mem _ hv), hrest, fun v hv d hd hk => ?_⟩
  rcases (hx.mem d).mp hd with rfl | ⟨hd, hne⟩
  · exact absurd hk (hapart v hv)
  · have hmem := ha.room v (List.mem_cons_of_mem _ hv) d hd hk
    exact (List.mem_cons.mp hmem).resolve_left hne

include hc hh in
theorem Holds.new_ne_old (hfree : u.old.key? = some k ∨ c.stored.get? k = none) {v : Upgrade}
    (hv : v ∈ us) : v.old.key? ≠ some k := by
  have hstored := hh.stored v (List.mem_cons_of_mem _ hv)
  intro hk
  rcases hfree with hown | hnone
  · exact hh.old_ne hv (hc.eq_of_key?_eq hstored (hh.stored u List.mem_cons_self)
      (hk.trans hown.symm))
  · exact hc.get?_eq_none_iff.mp hnone v.old hstored hk

include hc hh hx in
theorem Admits.of_exchanged (hn : u.new.key? = some k)
    (hfree : u.old.key? = some k ∨ c.stored.get? k = none) (ha : c₁.Admits us) :
    c.Admits (u :: us) := by
  refine ⟨?_, List.pairwise_cons.mpr ⟨fun v hv heq => ?_, ha.apart⟩, ?_⟩
  · intro v hv
    rcases List.mem_cons.mp hv with rfl | hv
    · exact ⟨k, hn⟩
    · exact ha.identified v hv
  · -- the place that has just been taken would have to be left again
    have hmem := ha.room v hv u.new ((hx.mem _).mpr (Or.inl rfl)) heq
    obtain ⟨v', hv', hold⟩ := List.mem_map.mp hmem
    exact hh.new_ne_old hc hfree hv' (hold ▸ hn)
  · intro v hv d hd hk
    by_cases hdu : d = u.old
    · exact hdu ▸ List.mem_cons_self
    · rcases List.mem_cons.mp hv with rfl | hv
      · rcases hfree with hown | hnone
        · exact absurd (hc.eq_of_key?_eq hd (hh.stored v List.mem_cons_self)
            (hk.trans (hn.trans hown.symm))) hdu
        · exact absurd (hk.trans hn) (hc.get?_eq_none_iff.mp hnone d hd)
      · exact List.mem_cons_of_mem _ (ha.room v hv d ((hx.mem d).mpr (Or.inr ⟨hd, hdu⟩)) hk)

include hc hh hx in
theorem Rewritten.of_exchanged (hn : u.new.key? = some k)
    (hfree : u.old.key? = some k ∨ c.stored.get? k = none) (h : c₁.Rewritten us c') :
    c.Rewritten (u :: us) c' := by
  refine ⟨h.keyed, h.name.trans hx.name, fun d => ?_⟩
  have hnew : u.new ∉ us.map Upgrade.old := by
    intro hmem
    obtain ⟨v, hv, hold⟩ := List.mem_map.mp hmem
    exact hh.new_ne_old hc hfree hv (hold ▸ hn)
  rw [h.mem, hx.mem, List.map_cons, List.map_cons, List.mem_cons, List.mem_cons, not_or]
  constructor
  · rintro (hd | ⟨rfl | ⟨hd, hne⟩, hkept⟩)
    · exact Or.inl (Or.inr hd)
    · exact Or.inl (Or.inl rfl)
    · exact Or.inr ⟨hd, hne, hkept⟩
  · rintro ((rfl | hd) | ⟨hd, hne, hkept⟩)
    · exact Or.inr ⟨Or.inl rfl, hnew⟩
    · exact Or.inl hd
    · exact Or.inr ⟨Or.inr ⟨hd, hne⟩, hkept⟩

end Step

/-- When all writes are made, there was a place for every new form, and none was blocked. -/
theorem Holds.of_rewrite (hc : c.Keyed) (hh : c.Holds us) (h : c.rewrite us = .ok c') :
    c.Admits us ∧ Clears us ∧ c.Rewritten us c' := by
  induction us generalizing c with
  | nil =>
    obtain rfl := Except.ok.inj h
    exact ⟨⟨by simp, .nil, by simp⟩, .nil, hc, rfl, by simp⟩
  | cons u us ih =>
    rw [rewrite_cons] at h
    cases hreplace : c.replace u.old u.new with
    | error e =>
      rw [hreplace] at h
      cases h
    | ok c₁ =>
      rw [hreplace] at h
      obtain ⟨⟨k, hn, hfree⟩, hx⟩ :=
        hc.of_replace_stored (hh.stored u List.mem_cons_self) hreplace
      obtain ⟨hadmits, hclears, hrewritten⟩ := ih hx.keyed (hh.exchanged hx) h
      refine ⟨hadmits.of_exchanged hc hh hx hn hfree, List.pairwise_cons.mpr ⟨?_, hclears⟩,
        hrewritten.of_exchanged hc hh hx hn hfree⟩
      intro v hv heq
      exact hh.new_ne_old hc hfree hv (heq.symm.trans hn)

/-- When there is a place for every new form, only a blocked write can fail. -/
theorem Admits.rewrite (hc : c.Keyed) (hh : c.Holds us) (ha : c.Admits us) :
    (∃ c', c.rewrite us = .ok c') ∨
      ∃ k, Blocks us k ∧ c.rewrite us = .error (.duplicateDocumentKey c.name k) := by
  induction us generalizing c with
  | nil => exact Or.inl ⟨c, rfl⟩
  | cons u us ih =>
    have hstored := hh.stored u List.mem_cons_self
    obtain ⟨k, hn⟩ := ha.identified u List.mem_cons_self
    rw [rewrite_cons]
    by_cases hfree : u.old.key? = some k ∨ c.stored.get? k = none
    · obtain ⟨c₁, hreplace, hx⟩ := hc.replace hstored hn hfree
      rw [hreplace]
      rcases ih hx.keyed (hh.exchanged hx) (ha.exchanged hx) with hok | ⟨j, hblocks, herror⟩
      · exact Or.inl hok
      · exact Or.inr ⟨j, hblocks.cons u, hx.name ▸ herror⟩
    · obtain ⟨hmoves, htaken⟩ := not_or.mp hfree
      obtain ⟨d, hd⟩ := Option.ne_none_iff_exists'.mp htaken
      obtain ⟨hmem, hk⟩ := hc.get?_iff.mp hd
      -- what stands there is one of the old forms, and not that of the document that moves
      obtain ⟨v, hv, rfl⟩ := List.mem_map.mp
        (ha.room u List.mem_cons_self d hmem (hk.trans hn.symm))
      have hlater : v ∈ us := (List.mem_cons.mp hv).resolve_left fun heq => hmoves (heq ▸ hk)
      rw [replace_of_taken hn hmoves htaken]
      exact Or.inr ⟨k, ⟨u, v, (List.singleton_sublist.mpr hlater).cons_cons u, hn, hk⟩, rfl⟩

/-- Writes that can be made in one order can be made in the orders in which none is blocked. -/
theorem Holds.rewrite_of_perm (hc : c.Keyed) (hh : c.Holds us) (hperm : us.Perm vs)
    (h : c.rewrite us = .ok c') :
    (Clears vs → c.rewrite vs = .ok c') ∧
      (¬ Clears vs → ∃ k, Blocks vs k ∧
        c.rewrite vs = .error (.duplicateDocumentKey c.name k)) := by
  obtain ⟨hadmits, -, hrewritten⟩ := hh.of_rewrite hc h
  have hh' := hh.perm hperm
  rcases (hadmits.perm hperm).rewrite hc hh' with ⟨c₁, hok⟩ | ⟨k, hblocks, herror⟩
  · obtain ⟨-, hclears, hrewritten'⟩ := hh'.of_rewrite hc hok
    exact ⟨fun _ => hrewritten.unique hrewritten' hperm ▸ hok, fun hno => absurd hclears hno⟩
  · exact ⟨fun hclears => absurd hclears (not_clears_of_blocks hblocks),
      fun _ => ⟨k, hblocks, herror⟩⟩

end Collection

namespace Load

variable {Object : Type} {l : Loader Object} {c : Collection} {filter : Routing.Filter Object}
  {raws : List Document} {us vs : List Upgrade}

/-! ## The writes of a load -/

inductive Loader.Reads (l : Loader Object) (c : Collection) (filter : Routing.Filter Object) :
    List Document → Prop where
  | selection {raws : List Document} (h : l.selects filter c = .ok raws) : Reads l c filter raws
  | query (q : Query) : Reads l c filter (c.select q)

def Loader.Upgrades (l : Loader Object) (c : Collection) (us : List Upgrade) : Prop :=
  ∃ filter raws pick o, l.Reads c filter raws ∧
    convert (l.step filter) l.settings.workers pick (raws.map .value) = .ok o ∧ o.upgrades.Perm us

theorem Loader.Reads.sublist (h : l.Reads c filter raws) : raws.Sublist c.documents := by
  cases h with
  | query q => exact List.filter_sublist
  | selection h =>
    unfold selects at h
    split at h
    · rw [ownedBy_eq_ok_iff] at h
      exact h.2 ▸ List.filter_sublist
    · exact Except.ok.inj h ▸ List.Sublist.refl _

theorem Loader.Upgrades.holds (hc : c.Keyed) (h : l.Upgrades c us) : c.Holds us := by
  obtain ⟨filter, raws, pick, o, hreads, hconvert, hperm⟩ := h
  obtain ⟨raws', hread, -, rfl⟩ := of_convert_eq_ok hconvert
  rw [Item.readAll_map_value] at hread
  obtain rfl := (Prod.mk.inj hread).1
  rw [upgrades_map_outcome] at hperm
  have hraws : (arrange pick l.settings.workers 0 raws).Nodup :=
    (arrange_perm _ _ _ _).nodup_iff.mpr (hc.nodup_documents.sublist hreads.sublist)
  refine ⟨fun u hu => ?_, ?_⟩
  · obtain ⟨raw, hraw, hupgrade⟩ := List.mem_filterMap.mp (hperm.mem_iff.mpr hu)
    obtain ⟨rfl, -, -⟩ := Step.of_upgrade? hupgrade
    exact hreads.sublist.subset ((arrange_perm _ _ _ _).mem_iff.mp hraw)
  · exact (hperm.map Upgrade.old).nodup_iff.mp (hraws.sublist (Step.old_sublist _ _))

theorem Loader.upgrades_of_process (hreads : l.Reads c filter raws)
    (h : ∀ raw ∈ raws, ∃ r, (l.step filter).process raw = .ok r)
    (hperm : us.Perm (raws.filterMap (l.step filter).upgrade?)) : l.Upgrades c us := by
  refine ⟨filter, raws, fun _ => 0, _, hreads, convert_eq_ok h, ?_⟩
  rw [upgrades_map_outcome, arrange_first]
  exact hperm.symm

/-- When the upgraded documents of a load can be written back in one order, they can be written back
in every order in which none is blocked by a later one, and leave the same contents. In all other
orders a document fails to move to a place that a later one is still to leave. -/
theorem write_back_of_perm (l : Loader Object) {w : World} (hw : w.InMemory)
    (hkeyed : (w.contents l.binding.store).Keyed)
    (hus : l.Upgrades (w.contents l.binding.store) us) (hperm : us.Perm vs)
    (hok : ((Loader.writeBack l.binding.store us).run w).2 = .ok ()) :
    let other := (Loader.writeBack l.binding.store vs).run w
    (Clears vs → other.2 = .ok () ∧
      other.1.contents = ((Loader.writeBack l.binding.store us).run w).1.contents) ∧
    (¬ Clears vs → ∃ k, Blocks vs k ∧
      other.2 = .error (.duplicateDocumentKey (w.contents l.binding.store).name k)) := by
  intro other
  cases hrewrite : (w.contents l.binding.store).rewrite us with
  | error e => cases hok.symm.trans (Loader.run_writeBack_of_error hw hrewrite)
  | ok c' =>
    obtain ⟨hsame, hblocked⟩ := (hus.holds hkeyed).rewrite_of_perm hkeyed hperm hrewrite
    constructor
    · intro hclears
      obtain ⟨-, hcontents, -⟩ := Loader.run_writeBack_of_ok hw hrewrite
      obtain ⟨-, hother, hdone⟩ := Loader.run_writeBack_of_ok hw (hsame hclears)
      exact ⟨hdone, hother.trans hcontents.symm⟩
    · intro hno
      obtain ⟨k, hblocks, herror⟩ := hblocked hno
      exact ⟨k, hblocks, Loader.run_writeBack_of_error hw herror⟩

/-! Fruits that take over the name of another one. The apple becomes the pear, which becomes the
plum. -/

def heir (name next : String) : Document :=
  (Document.ofIdentity (.text name)).insert "next" (.text next)

def succession : Patch where
  fromVersion := 1
  description := none
  body := fun d => match d.get? "next" with
    | some v => (d.setIdentity v, .ok ())
    | none => (d, .ok ())

def succeeding : Loader Value where
  binding := ⟨{ fruitType with chain := ⟨[succession], rfl⟩ }, "fruits", "fruits",
    .ofCodec .value "name"⟩
  settings := {}
  partition := none

def heirs : World :=
  ⟨TextMap.empty.insert "fruits"
    { collection := (((Collection.empty "fruits").put "\"apple\"" (heir "apple" "pear")).put
        "\"fig\"" (heir "fig" "grape")).put "\"pear\"" (heir "pear" "plum")
      supply := fun _ => "" }⟩

def inherits (name next : String) : Upgrade := ⟨heir name next, (heir next next).setVersion 2⟩

theorem inMemory_heirs : heirs.InMemory :=
  World.InMemory.setStore (w := ⟨.empty⟩) (fun _ => ⟨rfl, rfl, rfl⟩) "fruits" ⟨rfl, rfl, rfl⟩

theorem keyed_heirs : (heirs.contents "fruits").Keyed :=
  (((Collection.keyed_empty "fruits").put rfl).put rfl).put rfl

theorem documents_heirs :
    (heirs.contents "fruits").documents =
      [heir "apple" "pear", heir "fig" "grape", heir "pear" "plum"] := rfl

def appleFirst : List Upgrade :=
  [inherits "apple" "pear", inherits "fig" "grape", inherits "pear" "plum"]

def pearFirst : List Upgrade :=
  [inherits "pear" "plum", inherits "apple" "pear", inherits "fig" "grape"]

def figFirst : List Upgrade :=
  [inherits "fig" "grape", inherits "pear" "plum", inherits "apple" "pear"]

theorem pearFirst_perm_appleFirst : pearFirst.Perm appleFirst :=
  (List.perm_append_singleton (inherits "pear" "plum")
    [inherits "apple" "pear", inherits "fig" "grape"]).symm

theorem upgrades_heirs : succeeding.Upgrades (heirs.contents "fruits") pearFirst := by
  have hreads : succeeding.Reads (heirs.contents "fruits") .acceptAll
      (heirs.contents "fruits").documents := .selection rfl
  refine Loader.upgrades_of_process hreads (fun raw hraw => ?_) pearFirst_perm_appleFirst
  rw [documents_heirs] at hraw
  simp only [List.mem_cons, List.not_mem_nil, or_false] at hraw
  rcases hraw with rfl | rfl | rfl <;> exact ⟨_, rfl⟩

theorem heirs_in_turn :
    let pear := (Loader.writeBack "fruits" pearFirst).run heirs
    let fig := (Loader.writeBack "fruits" figFirst).run heirs
    let apple := (Loader.writeBack "fruits" appleFirst).run heirs
    pear.2 = .ok () ∧ (fig.2 = .ok () ∧ fig.1.contents = pear.1.contents) ∧
      ∃ k, Blocks appleFirst k ∧ apple.2 = .error (.duplicateDocumentKey "fruits" k) := by
  have hok : ((Loader.writeBack "fruits" pearFirst).run heirs).2 = .ok () := rfl
  have hfig : pearFirst.Perm figFirst :=
    List.perm_append_singleton (inherits "fig" "grape")
      [inherits "pear" "plum", inherits "apple" "pear"]
  have hclears : Clears figFirst := by
    unfold Clears
    decide
  have hblocked : ¬ Clears appleFirst := by
    unfold Clears
    decide
  obtain ⟨hsame, -⟩ :=
    write_back_of_perm succeeding inMemory_heirs keyed_heirs upgrades_heirs hfig hok
  obtain ⟨-, hfails⟩ := write_back_of_perm succeeding inMemory_heirs keyed_heirs upgrades_heirs
    pearFirst_perm_appleFirst hok
  exact ⟨hok, hsame hclears, hfails hblocked⟩

/-- The apple cannot become the pear before the pear has become the plum. -/
theorem heirs_out_of_turn :
    (heirs.InMemory ∧ succeeding.Upgrades (heirs.contents "fruits") pearFirst ∧
      pearFirst.Perm appleFirst ∧
      ((Loader.writeBack "fruits" pearFirst).run heirs).2 = .ok ()) ∧
    ((Loader.writeBack "fruits" appleFirst).run heirs).2 =
      .error (.duplicateDocumentKey "fruits" "\"pear\"") :=
  ⟨⟨inMemory_heirs, upgrades_heirs, pearFirst_perm_appleFirst, rfl⟩, rfl⟩

end Load

end StoredObjects
