import StoredObjects.Proofs.Lists
import StoredObjects.Proofs.Merge.Runs

/-! # What flows through a merge

Whatever the workers do, the items that the reader was given and those in the queue are a shuffle of
items that the sources gave before anything else. Unless a failure was recorded, a worker that is
over has met the end of its source, or was lost with it.
-/

namespace StoredObjects

universe u

variable {α : Type u}

/-! ## Shuffles -/

/-- The items of several lists in one list, those of each list in their order. -/
inductive Shuffle : List (List α) → List α → Prop where
  | empty (n : Nat) : Shuffle (List.replicate n []) []
  /-- One item more, which is the next of one of the lists. -/
  | snoc {lists : List (List α)} {out list : List α} {i : Nat} {a : α} (h : Shuffle lists out)
      (hi : lists[i]? = some list) : Shuffle (lists.set i (list ++ [a])) (out ++ [a])

theorem Shuffle.front {lists : List (List α)} {out rest : List α}
    (h : Shuffle lists (out ++ rest)) :
    ∃ fronts, List.Forall₂ (· <+: ·) fronts lists ∧ Shuffle fronts out := by
  generalize hall : out ++ rest = all at h
  induction h generalizing rest with
  | empty n =>
    obtain ⟨rfl, rfl⟩ := List.append_eq_nil_iff.mp hall
    exact ⟨_, List.forall₂_same.mpr fun list _ => List.prefix_refl list, .empty n⟩
  | @snoc lists before list i a h hi ih =>
    rcases List.eq_nil_or_concat rest with rfl | ⟨rest, b, rfl⟩
    · obtain rfl : out = before ++ [a] := by simpa using hall
      exact ⟨_, List.forall₂_same.mpr fun list _ => List.prefix_refl list, .snoc h hi⟩
    · rw [List.concat_eq_append, ← List.append_assoc] at hall
      obtain ⟨hbefore, -⟩ := List.append_inj' hall rfl
      obtain ⟨fronts, hfronts, hout⟩ := ih hbefore
      obtain ⟨front, hfront, hprefix⟩ := exists_of_forall₂ hfronts.flip hi
      have hgrown := forall₂_set hfronts i (List.IsPrefix.trans hprefix (List.prefix_append _ [a]))
      obtain ⟨hlt, rfl⟩ := List.getElem?_eq_some_iff.mp hfront
      rw [List.set_getElem_self] at hgrown
      exact ⟨fronts, hgrown, hout⟩

/-! ## Sources -/

namespace Source

variable {source : Source α} {items : List α} {a : α}

def Gives (source : Source α) (items : List α) : Prop :=
  ∀ i a, items[i]? = some a → source i = .item (.value a)

/-- The first that comes and is no item is this failure. -/
def FailsFirst (source : Source α) (e : Failure) : Prop :=
  ∃ items, source.Gives items ∧ source items.length = .item (.failed e)

theorem gives_nil (source : Source α) : source.Gives [] := by
  intro i a hi
  simp at hi

theorem Gives.append_singleton (h : source.Gives items)
    (ha : source items.length = .item (.value a)) : source.Gives (items ++ [a]) := by
  intro i b hi
  rcases Nat.lt_trichotomy i items.length with hlt | rfl | hgt
  · exact h i b (by rwa [List.getElem?_append_left hlt] at hi)
  · obtain rfl : a = b := by simpa using hi
    exact ha
  · rw [List.getElem?_eq_none (by simp; omega)] at hi
    cases hi

theorem Gives.front (h : source.Gives items) {front : List α} (hfront : front <+: items) :
    source.Gives front := by
  obtain ⟨rest, rfl⟩ := hfront
  intro i b hi
  refine h i b ?_
  rwa [List.getElem?_append_left (List.getElem?_eq_some_iff.mp hi).1]

theorem Gives.length_le (h : source.Gives items) {n : Nat}
    (hn : ∀ a, source n ≠ .item (.value a)) : items.length ≤ n := by
  by_contra hlt
  have hget := List.getElem?_eq_getElem (Nat.lt_of_not_le hlt)
  exact hn _ (h n _ hget)

theorem Gives.length_eq {items' : List α} (h : source.Gives items) (h' : source.Gives items')
    (hstop : ∀ a, source items.length ≠ .item (.value a))
    (hstop' : ∀ a, source items'.length ≠ .item (.value a)) : items.length = items'.length :=
  Nat.le_antisymm (h.length_le hstop') (h'.length_le hstop)

end Source

namespace Merge

variable {m m' m₁ m₂ : Merge α} {w w' : Worker α}

/-! ## The invariant -/

/-- The worker has put these items into the queue. Where no failure was recorded, it is over only
for its source. -/
structure Worker.HasPut (failure : Option Failure) (w : Worker α) (put : List α) : Prop where
  gives : w.source.Gives (put ++ w.hand.toList)
  asked : w.phase = .running → w.taken = (put ++ w.hand.toList).length
  taken_le : w.taken ≤ put.length + 1
  ended : w.phase = .ended → failure.isSome = true ∨ w.source put.length = .ended
  lost : ∀ known, w.phase = .lost known → failure.isSome = true ∨ w.source put.length = .died

variable {failure failure' : Option Failure} {put : List α}

theorem Worker.HasPut.mono (h : w.HasPut failure put)
    (hfailure : failure.isSome = true → failure'.isSome = true) : w.HasPut failure' put :=
  ⟨h.gives, h.asked, h.taken_le, fun hphase => (h.ended hphase).imp hfailure id,
    fun known hphase => (h.lost known hphase).imp hfailure id⟩

theorem Worker.HasPut.gives_put (h : w.HasPut failure put) : w.source.Gives put :=
  h.gives.front (List.prefix_append _ _)

theorem forall₂_gives {workers : List (Worker α)} {puts : List (List α)}
    (h : List.Forall₂ (Worker.HasPut failure) workers puts) :
    List.Forall₂ Source.Gives (workers.map Worker.source) puts :=
  List.forall₂_map_left_iff.mpr (h.imp fun _ _ hhas => hhas.gives_put)

theorem Worker.HasPut.leave (h : w.HasPut failure put) {taken : Nat}
    (htaken : taken ≤ put.length + 1) {phase : Phase} (hphase : phase ≠ .running)
    (hended : phase = .ended → failure.isSome = true ∨ w.source put.length = .ended)
    (hlost : ∀ known, phase = .lost known →
      failure.isSome = true ∨ w.source put.length = .died) :
    (({ w with taken } : Worker α).leave phase).HasPut failure put := by
  refine ⟨?_, fun hrunning => absurd hrunning hphase, htaken, hended, hlost⟩
  simpa [Worker.leave] using h.gives_put

/-- The reader was given the items `passed`. -/
structure Flows (sources : List (Source α)) (passed : List α) (m : Merge α) : Prop where
  capacity : 0 < m.capacity
  origins : m.workers.map Worker.source = sources
  shuffled : ∃ puts, List.Forall₂ (Worker.HasPut m.failure) m.workers puts ∧
    Shuffle puts (passed ++ m.queue)
  failed : ∀ e, m.failure = some e → ∃ source ∈ sources, source.FailsFirst e
  stopped : m.cancelled = true ∨ m.abandoned = true → m.failure.isSome = true

variable {sources : List (Source α)} {passed : List α}

theorem flows_ofSources (capacity patience : Nat) (sources : List (Source α)) :
    Flows sources [] (ofSources capacity patience sources) := by
  refine ⟨?_, ?_, ⟨List.replicate sources.length [], ?_, .empty _⟩, by simp [ofSources],
    by simp [ofSources]⟩
  · simp only [ofSources]
    omega
  · simp [ofSources, Function.comp_def]
  · simp only [ofSources]
    induction sources with
    | nil => exact .nil
    | cons source sources ih =>
      refine .cons ⟨by simpa using source.gives_nil, ?_, ?_, ?_, ?_⟩ ih <;> simp

/-- A worker that moves puts at most one item into the queue, the next of its source. -/
theorem Worker.HasPut.moved (h : w.HasPut m.failure put) (hrunning : w.phase = .running)
    (hstopped : m.cancelled = true ∨ m.abandoned = true → m.failure.isSome = true)
    (hmove : Move m w m₁ w') :
    w'.HasPut m₁.failure put ∧ m₁.queue = m.queue ∨
      ∃ a, w'.HasPut m₁.failure (put ++ [a]) ∧ m₁.queue = m.queue ++ [a] := by
  have hasked := h.asked hrunning
  -- with nothing in hand, the source was asked once for every item in the queue
  have htaken : w.hand = none → w.taken = put.length := by
    intro hhand
    simpa [hhand] using hasked
  have hle := h.taken_le
  cases hmove with
  | @took a hhand hnext =>
    have hat := htaken hhand
    rw [hat] at hnext
    exact Or.inl ⟨⟨h.gives_put.append_singleton hnext, by simp [hat], by simp [hat],
      by simp [hrunning], by simp [hrunning]⟩, rfl⟩
  | @failed e hhand hnext =>
    have hsome := isSome_failure_record m e
    have hput : w.HasPut (m.record e).failure put := h.mono fun _ => hsome
    refine Or.inl ⟨hput.leave ?_ (by simp) (fun _ => Or.inl hsome) (by simp), queue_record m e⟩
    simp [htaken hhand]
  | drained hhand hnext =>
    have hat := htaken hhand
    rw [hat] at hnext
    exact Or.inl ⟨h.leave (by simp [hat]) (by simp) (fun _ => Or.inr hnext) (by simp), rfl⟩
  | died hhand hnext =>
    have hat := htaken hhand
    rw [hat] at hnext
    exact Or.inl ⟨h.leave (by simp [hat]) (by simp) (by simp) (fun _ _ => Or.inr hnext), rfl⟩
  | @put a hhand hroom =>
    have hgives := h.gives
    simp only [hhand, Option.toList_some] at hgives hasked
    refine Or.inr ⟨a, ⟨by simpa using hgives, fun _ => by simpa using hasked, ?_,
      by simp [hrunning], by simp [hrunning]⟩, rfl⟩
    rw [List.length_append, List.length_singleton]
    exact Nat.le_succ_of_le hle
  | stopped hcancelled =>
    have hsome := hstopped (Or.inl hcancelled)
    exact Or.inl ⟨h.leave hle (by simp) (fun _ => Or.inl hsome) (by simp), rfl⟩
  | aborted habandoned =>
    have hsome := hstopped (Or.inr habandoned)
    exact Or.inl ⟨h.leave hle (by simp) (by simp) (fun _ _ => Or.inl hsome), rfl⟩

theorem Flows.moved (h : Flows sources passed m) {e : Event} (hnext : m.next? e = some m') :
    Flows sources passed m' := by
  obtain ⟨w, m₁, w', hw, hrunning, hmove, rfl⟩ := exists_move_of_next? hnext
  obtain ⟨puts, hputs, hshuffle⟩ := h.shuffled
  obtain ⟨put, hput, hhas⟩ := exists_of_forall₂ hputs hw
  obtain ⟨hworkers, hcapacity, -, hsource⟩ := hmove.frame
  have hkept := hmove.failure_eq
  have hsome : m.failure.isSome = true → m₁.failure.isSome = true := fun hs => by rw [hkept hs, hs]
  have hputs' : List.Forall₂ (Worker.HasPut m₁.failure) m.workers puts :=
    hputs.imp fun _ _ hhas => hhas.mono hsome
  refine ⟨hcapacity ▸ h.capacity, ?_, ?_, fun e he => ?_, fun hstop => ?_⟩
  · simp only [setWorker, hworkers, List.map_set, hsource, ← h.origins]
    exact set_of_getElem? (by simp [hw])
  · simp only [setWorker, hworkers]
    rcases hhas.moved hrunning h.stopped hmove with ⟨hafter, hqueue⟩ | ⟨a, hafter, hqueue⟩
    · have hset := forall₂_set hputs' e.place hafter
      rw [set_of_getElem? hput] at hset
      rw [hqueue]
      exact ⟨puts, hset, hshuffle⟩
    · refine ⟨_, forall₂_set hputs' e.place hafter, ?_⟩
      rw [hqueue, ← List.append_assoc]
      exact .snoc hshuffle hput
  · change m₁.failure = some e at he
    cases hmove with
    | @failed e' hhand hgave =>
      rcases hfailure : m.failure with _ | e''
      · obtain rfl : e' = e := by simpa [record, hfailure] using he
        refine ⟨w.source, ?_, put, hhas.gives_put, ?_⟩
        · rw [← h.origins]
          exact List.mem_map.mpr ⟨w, List.mem_of_getElem? hw, rfl⟩
        · have hasked := hhas.asked hrunning
          simp only [hhand, Option.toList_none, List.append_nil] at hasked
          rwa [← hasked]
      · rw [hkept (by simp [hfailure])] at he
        exact h.failed e he
    | _ => exact h.failed e he
  · change m₁.cancelled = true ∨ m₁.abandoned = true at hstop
    change m₁.failure.isSome = true
    cases hmove with
    | failed => exact isSome_failure_record m _
    | _ => exact h.stopped hstop

theorem forall₂_reported {workers : List (Worker α)} {puts : List (List α)}
    (h : List.Forall₂ (Worker.HasPut failure) workers puts) :
    List.Forall₂ (Worker.HasPut failure) (reported workers) puts := by
  induction h with
  | nil => exact .nil
  | @cons w put workers puts hhead htail ih =>
    unfold reported
    split
    · rename_i hlost
      have hphase : w.phase = .lost false := by simpa [Worker.isUnknownLoss] using hlost
      refine .cons ⟨hhead.gives, by simp, hhead.taken_le, by simp, fun _ _ => ?_⟩ htail
      exact hhead.lost false hphase
    · exact .cons hhead ih

theorem Flows.looked (h : Flows sources passed m) {answer : Option (Answer α)}
    (hlook : Look m m' answer) : Flows sources (passed ++ given answer.toList) m' := by
  cases hlook with
  | raised hfailure =>
    refine ⟨h.capacity, h.origins, ?_, h.failed, fun _ => ?_⟩
    · simpa [shutdown] using h.shuffled
    · simp [shutdown, hfailure]
  | @item a rest hlooked hqueue =>
    refine ⟨h.capacity, h.origins, ?_, h.failed, h.stopped⟩
    have hshuffled := h.shuffled
    rw [hqueue] at hshuffled
    simpa using hshuffled
  | lost hclosed hfailure hlost =>
    refine ⟨h.capacity, ?_, ?_, h.failed, h.stopped⟩
    · exact (map_reported (fun _ _ => rfl) m.workers).trans h.origins
    · obtain ⟨puts, hputs, hshuffle⟩ := h.shuffled
      exact ⟨puts, forall₂_reported hputs, by simpa using hshuffle⟩
  | _ => exact ⟨h.capacity, h.origins, by simpa using h.shuffled, h.failed,
      h.stopped⟩

theorem Flows.run (h : Flows sources [] m) {n : Nat} {answers : List (Answer α)}
    (hrun : Runs m n answers m') : Flows sources (given answers) m' := by
  induction hrun with
  | start => exact h
  | moved _ hmove ih => exact ih.moved hmove
  | answered _ hlook ih => simpa using ih.looked (look_of_look_eq hlook)
  | waited _ hlook ih => simpa using ih.looked (look_of_look_eq hlook)

/-- Whatever the reader was given, it is a shuffle of what the sources gave first. -/
theorem Flows.exists_fronts (h : Flows sources passed m) :
    ∃ fronts, List.Forall₂ Source.Gives sources fronts ∧ Shuffle fronts passed := by
  obtain ⟨puts, hputs, hshuffle⟩ := h.shuffled
  obtain ⟨fronts, hfronts, hpassed⟩ := hshuffle.front
  refine ⟨fronts, ?_, hpassed⟩
  have hgives := h.origins ▸ forall₂_gives hputs
  rw [List.forall₂_iff_get] at hgives hfronts ⊢
  refine ⟨hgives.1.trans hfronts.1.symm, fun i hi hi' => ?_⟩
  exact (hgives.2 i hi (by omega)).front (hfronts.2 i hi' (by omega))

/-! ## What a closed queue means -/

/-- When all workers are over and nothing failed, every source has come to its end or died. -/
theorem Flows.over (h : Flows sources passed m) (hclosed : m.isClosed = true)
    (hfailure : m.failure = none) : ∃ puts, Shuffle puts (passed ++ m.queue) ∧
      List.Forall₂ (fun source put => source.Gives put ∧
        (source put.length = .ended ∨ source put.length = .died)) sources puts := by
  obtain ⟨puts, hputs, hshuffle⟩ := h.shuffled
  refine ⟨puts, hshuffle, ?_⟩
  rw [← h.origins, List.forall₂_map_left_iff]
  have hover : ∀ w ∈ m.workers, w.phase ≠ .running := by
    simpa [isClosed, Worker.isRunning] using hclosed
  rw [List.forall₂_iff_zip] at hputs ⊢
  refine ⟨hputs.1, fun {w put} hmem => ?_⟩
  have hhas := hputs.2 hmem
  rw [hfailure] at hhas
  refine ⟨hhas.gives_put, ?_⟩
  cases hphase : w.phase with
  | running => exact absurd hphase (hover w (List.of_mem_zip hmem).1)
  | ended => exact Or.inl (by simpa using hhas.ended hphase)
  | lost known => exact Or.inr (by simpa using hhas.lost known hphase)

theorem Flows.isSome_failure (h : Flows sources passed m) (hclosed : m.isClosed = true)
    {source : Source α} (hsource : source ∈ sources) {e : Failure} (hfails : source.FailsFirst e) :
    m.failure.isSome = true := by
  by_contra hnone
  obtain ⟨puts, -, hover⟩ := h.over hclosed (by simpa using hnone)
  obtain ⟨put, -, hgives, hstop⟩ := exists_mem_of_forall₂ hover hsource
  obtain ⟨items, hitems, hfailed⟩ := hfails
  have hlength := hgives.length_eq hitems (by rcases hstop with h | h <;> simp [h])
    (by simp [hfailed])
  rw [hlength, hfailed] at hstop
  simp at hstop

end Merge

end StoredObjects
