import StoredObjects.Proofs.Load.Upgraded
import StoredObjects.Proofs.Routing.Ownership

/-! # One load for each partition

Every process loads its own partition from the same store, one process after another. Each load
finds the store as the loads before it left it, with some documents exchanged for their current
forms. Which process a document belongs to is decided on its current form, and is therefore the same
for all of them.
-/

namespace StoredObjects

namespace Load

variable {Object : Type}

namespace Loader

def ofPartition (l : Loader Object) (count id : Nat) : Loader Object :=
  { l with partition := some ⟨id, count⟩ }

def whole (l : Loader Object) : Loader Object := { l with partition := none }

def inTurn : List (Loader Object × Schedule) → Program (List (Except Failure (Full Object)))
  | [] => .done []
  | (l, schedule) :: rest =>
    (l.loadAll schedule).bind fun (_, full) => (inTurn rest).bind fun fulls => .done (full :: fulls)

theorem run_inTurn_cons (l : Loader Object) (schedule : Schedule)
    (rest : List (Loader Object × Schedule)) (w : World) :
    (inTurn ((l, schedule) :: rest)).run w =
      (((inTurn rest).run ((l.loadAll schedule).run w).1).1,
        ((l.loadAll schedule).run w).2.2 ::
          ((inTurn rest).run ((l.loadAll schedule).run w).1).2) := by
  rw [inTurn, Program.run_bind, Program.run_bind]
  rfl

end Loader

section Partitions

variable {l : Loader Object} {c : Collection}

theorem owns_ofPartition (hs : Servable l.type l.binding.converter c) (count id : Nat) :
    (l.ofPartition count id).Owns c fun d =>
      Routing.owner l.type.routing count (l.type.latest d) == id := by
  intro d hd object _
  exact Routing.Share.owns_of_isSome ⟨l.type.routing, ⟨id, count⟩⟩ (hs.routed d hd)

theorem owns_whole : l.whole.Owns c fun _ => true := fun _ _ _ _ => rfl

/-- The documents that belong to one of the partitions. -/
def OwnedBy (l : Loader Object) (count : Nat) (ids : List Nat) (d : Document) : Prop :=
  Routing.owner l.type.routing count (l.type.latest d) ∈ ids

theorem run_inTurn (hwrite : l.type.writeBack = true) (hrouted : l.type.routed = false)
    (hexcluded : l.type.excludedFromLoad = false) (ht : l.type.VersionsFit)
    (hs : Servable l.type l.binding.converter c) (count : Nat) (ids : List (Nat × Schedule))
    {S : Document → Prop} {w : World} (hw : w.InMemory)
    (h : Upgraded l.type c S (w.contents l.binding.store)) :
    ∃ (parts : List (List Object)) (c' : Collection),
      ((Loader.inTurn (ids.map fun i => (l.ofPartition count i.1, i.2))).run w).2 =
        parts.map (fun objects => .ok (.loaded objects)) ∧
      ((Loader.inTurn (ids.map fun i => (l.ofPartition count i.1, i.2))).run w).1.contents =
        Function.update w.contents l.binding.store c' ∧
      Upgraded l.type c (fun d => S d ∨ OwnedBy l count (ids.map Prod.fst) d) c' ∧
      parts.flatten.Perm (((ids.map Prod.fst).flatMap fun i => c.documents.filter fun d =>
        Routing.owner l.type.routing count (l.type.latest d) == i).filterMap
          (served l.type l.binding.converter)) := by
  induction ids generalizing S w with
  | nil =>
    refine ⟨[], w.contents l.binding.store, rfl, ?_, h.congr fun d _ => Or.inl ?_, .nil⟩
    · exact (Function.update_eq_self l.binding.store w.contents).symm
    · simp [OwnedBy]
  | cons i ids ih =>
    obtain ⟨i, schedule⟩ := i
    obtain ⟨c₁, hsucceeds, h₁, hobjects⟩ := Upgraded.load (l := l.ofPartition count i) hs
      (owns_ofPartition hs count i) h ht (Loader.source_of_not_routed hrouted) schedule rfl
    obtain ⟨hmem, hcontents, hresult⟩ :=
      Loader.run_loadAll_of_succeeds (l := l.ofPartition count i) hwrite hexcluded hw hsucceeds
    have hstore : (((l.ofPartition count i).loadAll schedule).run w).1.contents
        l.binding.store = c₁ := by
      rw [hcontents]
      exact Function.update_self ..
    obtain ⟨parts, c₂, hparts, hend, h₂, hflat⟩ := ih hmem (hstore ▸ h₁)
    let part := ((l.ofPartition count i).result schedule
      (w.contents l.binding.store).documents).objects
    refine ⟨part :: parts, c₂, ?_, ?_, h₂.congr fun d _ => Or.inl ?_, ?_⟩
    · rw [List.map_cons, Loader.run_inTurn_cons, hresult, hparts]
      rfl
    · rw [List.map_cons, Loader.run_inTurn_cons, hend, hcontents]
      exact Function.update_idem ..
    · simp [OwnedBy, or_assoc]
    · rw [List.map_cons, List.flatMap_cons, List.filterMap_append, List.flatten_cons]
      exact hobjects.append hflat

theorem run_inTurn_of_excluded (hexcluded : l.type.excludedFromLoad = true) (count : Nat)
    (ids : List (Nat × Schedule)) (w : World) :
    (Loader.inTurn (ids.map fun i => (l.ofPartition count i.1, i.2))).run w =
      (w, (ids.map fun _ => []).map fun part => .ok (.loaded part)) := by
  induction ids generalizing w with
  | nil => rfl
  | cons i ids ih =>
    rw [List.map_cons, Loader.run_inTurn_cons,
      Loader.run_loadAll_of_excluded (l := l.ofPartition count i.1) hexcluded, ih]
    rfl

end Partitions

/-- The loads of all partitions, in any order, give every object of the load of everything once, and
leave the same contents. Unless the type takes no part in loads, these are the objects of all
documents that were stored. -/
theorem partitions_load_exactly_once (l : Loader Object) (hwrite : l.type.writeBack = true)
    (hrouted : l.type.routed = false) (ht : l.type.VersionsFit) {w : World}
    (hw : w.InMemory)
    (hs : Servable l.type l.binding.converter (w.contents l.binding.store))
    {count : Nat} (hcount : 1 ≤ count) (ids : List (Nat × Schedule))
    (hids : (ids.map Prod.fst).Perm (List.range' 1 count)) (schedule : Schedule) :
    ∃ (objects : List Object) (parts : List (List Object)),
      ((l.whole.loadAll schedule).run w).2.2 = .ok (.loaded objects) ∧
      ((Loader.inTurn (ids.map fun i => (l.ofPartition count i.1, i.2))).run w).2 =
        parts.map (fun part => .ok (.loaded part)) ∧
      parts.flatten.Perm objects ∧
      (l.type.excludedFromLoad = false → (objects.map Except.ok).Perm
        ((w.contents l.binding.store).documents.map l.objectOf)) ∧
      ((Loader.inTurn (ids.map fun i => (l.ofPartition count i.1, i.2))).run w).1.contents =
        ((l.whole.loadAll schedule).run w).1.contents := by
  by_cases hexcluded : l.type.excludedFromLoad = true
  · have hwhole := Loader.run_loadAll_of_excluded (l := l.whole) hexcluded schedule w
    have hparts := run_inTurn_of_excluded hexcluded count ids w
    refine ⟨[], ids.map fun _ => [], ?_, ?_, ?_, ?_, ?_⟩
    · rw [hwhole]
    · rw [hparts]
    · simp
    · simp [hexcluded]
    · rw [hparts, hwhole]
  · have hexcluded : l.type.excludedFromLoad = false := by simpa using hexcluded
    have hstart : Upgraded l.type (w.contents l.binding.store) (fun _ => False)
        (w.contents l.binding.store) := upgraded_refl hs.keyed
    have hnodup : (ids.map Prod.fst).Nodup := hids.nodup_iff.mpr List.nodup_range'
    have hall : ∀ d ∈ (w.contents l.binding.store).documents,
        Routing.owner l.type.routing count (l.type.latest d) ∈ ids.map Prod.fst := fun d hd =>
      hids.mem_iff.mpr (Routing.owner_mem_range' hcount (hs.routed d hd))
    obtain ⟨parts, c₁, hparts, hcontents₁, h₁, hflat⟩ :=
      run_inTurn hwrite hrouted hexcluded ht hs count ids hw hstart
    obtain ⟨c₂, hsucceeds, h₂, hobjects⟩ := Upgraded.load (l := l.whole) hs
      owns_whole hstart ht (Loader.source_of_not_routed hrouted) schedule rfl
    obtain ⟨-, hcontents₂, hresult⟩ :=
      Loader.run_loadAll_of_succeeds (l := l.whole) hwrite hexcluded hw hsucceeds
    rw [List.filter_true] at hobjects
    refine ⟨_, parts, hresult, hparts, ?_, fun _ => ?_, ?_⟩
    · -- every document belongs to exactly one of the partitions
      refine (hflat.trans ?_).trans hobjects.symm
      refine List.Perm.filterMap _ ((Routing.flatMap_filter_perm _ _ hnodup _).trans ?_)
      rw [List.filter_eq_self.mpr fun d hd => decide_eq_true (hall d hd)]
    · exact (hobjects.map Except.ok).trans (List.Perm.of_eq (map_filterMap_served hs.object))
    · have hsame : c₁ = c₂ := h₁.unique <| h₂.congr fun d hd => Or.inl <| by
        simp [OwnedBy, hall d hd]
      rw [hcontents₁, hcontents₂, hsame]
      rfl

/-! An apple of the first version and a pear of the second, on two processes. -/

def apple : Document := .ofIdentity (.text "apple")

def pear : Document := (Document.ofIdentity (.text "pear")).setVersion 2

def fruitBasket : World :=
  ⟨TextMap.empty.insert "fruits"
    { collection := ((Collection.empty "fruits").put "\"apple\"" apple).put "\"pear\"" pear
      supply := fun _ => "" }⟩

theorem inMemory_fruitBasket : fruitBasket.InMemory :=
  World.InMemory.setStore (w := ⟨.empty⟩) (fun _ => ⟨rfl, rfl, rfl⟩) "fruits" ⟨rfl, rfl, rfl⟩

theorem servable_fruitBasket :
    Servable fruitType fruits.converter (fruitBasket.contents "fruits") := by
  have hkeyed : (fruitBasket.contents "fruits").Keyed :=
    ((Collection.keyed_empty "fruits").put (d := apple) rfl).put (d := pear) rfl
  have hdocuments : ∀ d ∈ (fruitBasket.contents "fruits").documents, d = apple ∨ d = pear := by
    intro d hd
    have hlist : (fruitBasket.contents "fruits").documents = [apple, pear] := rfl
    simpa [hlist] using hd
  have hkey : ∀ d ∈ (fruitBasket.contents "fruits").documents,
      (fruitType.latest d).key? = d.key? := by
    intro d hd
    rcases hdocuments d hd with rfl | rfl <;> rfl
  refine ⟨hkeyed, ?_, ?_, ?_, ?_, ?_, ?_⟩
  · intro d hd
    rcases hdocuments d hd with rfl | rfl <;> rfl
  · intro d hd
    rcases hdocuments d hd with rfl | rfl <;> exact ⟨_, rfl⟩
  · intro d hd
    rcases hdocuments d hd with rfl | rfl <;> rfl
  · intro d hd
    rw [hkey d hd]
    exact hkeyed.key?_of_mem hd
  · intro d hd e he heq
    rw [hkey d hd, hkey e he] at heq
    exact hkeyed.eq_of_key?_eq hd he heq
  · intro d hd k hk
    exact Or.inl (hkey d hd ▸ hk)

def plainFruit (name : String) : Value := .object [("name", .text name)]

def gradedFruit (name : String) : Value := .object [("grade", .text "A"), ("name", .text name)]

/-- Two processes load both fruits, whichever comes first. -/
theorem two_partitions_load_basket :
    let l : Loader Value := ⟨fruits, {}, none⟩
    ∃ (objects : List Value) (parts : List (List Value)),
      ((l.whole.loadAll .inOrder).run fruitBasket).2.2 = .ok (.loaded objects) ∧
      ((Loader.inTurn [(l.ofPartition 2 2, .inOrder), (l.ofPartition 2 1, .inOrder)]).run
        fruitBasket).2 = parts.map (fun part => .ok (.loaded part)) ∧
      parts.flatten.Perm objects ∧ objects.Perm [gradedFruit "apple", plainFruit "pear"] ∧
      ((Loader.inTurn [(l.ofPartition 2 2, .inOrder), (l.ofPartition 2 1, .inOrder)]).run
        fruitBasket).1.contents = ((l.whole.loadAll .inOrder).run fruitBasket).1.contents := by
  intro l
  have hversion : l.type.VersionsFit := by
    unfold ObjectType.VersionsFit
    decide
  have hids : ([(2, Schedule.inOrder), (1, .inOrder)].map Prod.fst).Perm (List.range' 1 2) :=
    List.Perm.swap 1 2 []
  obtain ⟨objects, parts, hwhole, hparts, hperm, hobjects, hcontents⟩ :=
    partitions_load_exactly_once l rfl rfl hversion inMemory_fruitBasket servable_fruitBasket
      (by decide) _ hids .inOrder
  have hboth : (objects.map Except.ok : List (Except Halt Value)).Perm
      ([gradedFruit "apple", plainFruit "pear"].map Except.ok) := hobjects rfl
  exact ⟨objects, parts, hwhole, hparts, hperm,
    (List.map_perm_map_iff fun _ _ h => Except.ok.inj h).mp hboth, hcontents⟩

end Load

end StoredObjects
