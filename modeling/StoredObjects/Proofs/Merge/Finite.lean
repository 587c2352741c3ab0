import StoredObjects.Proofs.Merge.Completeness
import StoredObjects.Proofs.Merge.LostWorkers
import StoredObjects.Proofs.Merge.Revealed

/-! # Merges of finite sources

Where every source comes to an end or to a failure, whoever goes on asking does so, too. He is given
all that the sources give, or meets the failure of one of them.
-/

namespace StoredObjects

universe u

variable {α : Type u}

/-! ## Items as sources -/

def Ending.item? : Ending → Option (Item α)
  | .complete => none
  | .failed e => some (.failed e)
  | .stalled => some .stalled

namespace Item

variable {items : List (Item α)}

theorem getElem?_of_readAll {i : Nat} {a : α} (h : (readAll items).1[i]? = some a) :
    items[i]? = some (.value a) := by
  induction items generalizing i with
  | nil => cases h
  | cons item items ih =>
    cases item with
    | value b =>
      cases i with
      | zero =>
        obtain rfl := Option.some.inj h
        rfl
      | succ i => exact ih h
    | failed e => cases h
    | stalled => cases h

theorem getElem?_length_readAll (items : List (Item α)) :
    items[(readAll items).1.length]? = (readAll items).2.item? := by
  induction items with
  | nil => rfl
  | cons item items ih =>
    cases item with
    | value a => exact ih
    | failed e => rfl
    | stalled => rfl

end Item

namespace Source

variable {items : List (Item α)} {front : List α} {e : Failure}

theorem ofItems_eq (items : List (Item α)) (n : Nat) :
    ofItems items n = items[n]?.elim .ended .item := by
  simp only [ofItems, List.getElem?_toArray]
  cases items[n]? <;> rfl

theorem gives_readAll (items : List (Item α)) : (ofItems items).Gives (Item.readAll items).1 := by
  intro i a hi
  rw [ofItems_eq, Item.getElem?_of_readAll hi, Option.elim_some]

theorem ofItems_length_readAll (items : List (Item α)) :
    ofItems items (Item.readAll items).1.length =
      (Item.readAll items).2.item?.elim .ended .item := by
  rw [ofItems_eq, Item.getElem?_length_readAll]

theorem ofItems_ne_died (items : List (Item α)) (n : Nat) : ofItems items n ≠ .died := by
  rw [ofItems_eq]
  cases items[n]? <;> simp

theorem Gives.eq_readAll (h : (ofItems items).Gives front)
    (hstop : ∀ a, ofItems items front.length ≠ .item (.value a)) :
    front = (Item.readAll items).1 := by
  refine h.eq (gives_readAll items) hstop fun a => ?_
  rw [ofItems_length_readAll]
  cases (Item.readAll items).2 <;> simp [Ending.item?]

theorem Gives.complete_of_ended (h : (ofItems items).Gives front)
    (hended : ofItems items front.length = .ended) :
    (Item.readAll items).2 = .complete ∧ front = (Item.readAll items).1 := by
  have hfront := h.eq_readAll (by simp [hended])
  have hbehind := ofItems_length_readAll items
  rw [← hfront, hended] at hbehind
  refine ⟨?_, hfront⟩
  cases hending : (Item.readAll items).2 <;> simp [hending, Ending.item?] at hbehind
  rfl

theorem FailsFirst.failed_of_ofItems (h : (ofItems items).FailsFirst e) :
    (Item.readAll items).2 = .failed e := by
  obtain ⟨front, hgives, hfailed⟩ := h
  have hbehind := ofItems_length_readAll items
  rw [← hgives.eq_readAll (by simp [hfailed]), hfailed] at hbehind
  cases hending : (Item.readAll items).2 <;> simp [hending, Ending.item?] at hbehind
  rw [hbehind]

end Source

namespace Merge

variable {m m' m₁ : Merge α} {w w' : Worker α} {sources : List (Source α)} {passed : List α}
  {n k : Nat}

/-- What a reader comes to who waits for every answer: the end of all items, or a failure. -/
inductive Comes (m : Merge α) : Except Failure (List α) → Prop where
  | ended {n : Nat} {items : List α} {m₁ m₂ : Merge α} (hrun : Runs m n (items.map .item) m₁)
      (hlook : m₁.look = (m₂, some .ended)) : Comes m (.ok items)
  | failed {n : Nat} {items : List α} {m₁ m₂ : Merge α} {e : Failure}
      (hrun : Runs m n (items.map .item) m₁) (hlook : m₁.look = (m₂, some (.failed e))) :
      Comes m (.error e)

theorem Comes.of_runs {items : List α} {r : Except Failure (List α)}
    (hrun : Runs m n (items.map .item) m₁) (h : m₁.Comes r) :
    m.Comes (r.map fun rest => items ++ rest) := by
  cases h with
  | @ended _ rest _ _ hrest hlook =>
    have hall := hrun.trans hrest
    rw [← List.map_append] at hall
    exact .ended hall hlook
  | @failed _ rest _ _ e hrest hlook =>
    have hall := hrun.trans hrest
    rw [← List.map_append] at hall
    exact .failed hall hlook

/-! ## Whoever asks is answered -/

def Worker.rest (k : Nat) (w : Worker α) : Nat :=
  3 * (k - w.taken) + 2 * w.hand.toList.length + if w.isRunning then 1 else 0

def rest (k : Nat) (m : Merge α) : Nat := (m.workers.map (Worker.rest k)).sum + m.queue.length

theorem Worker.rest_leave_lt (hrunning : w.phase = .running) {phase : Phase}
    (hphase : phase ≠ .running) : (w.leave phase).rest k < w.rest k := by
  have hbefore : w.isRunning = true := by simp [Worker.isRunning, hrunning]
  have hafter : (w.leave phase).isRunning = false := by
    simp [Worker.isRunning, Worker.leave, hphase]
  have hrest : (w.leave phase).rest k = 3 * (k - w.taken) := by
    simp only [Worker.rest, hafter]
    rfl
  rw [hrest]
  simp only [Worker.rest, hbefore, if_true]
  omega

theorem Worker.rest_taken_le (w : Worker α) (k : Nat) :
    ({ w with taken := w.taken + 1 } : Worker α).rest k ≤ w.rest k := by
  have hsame : ({ w with taken := w.taken + 1 } : Worker α).isRunning = w.isRunning := rfl
  simp only [Worker.rest, hsame]
  omega

theorem Move.rest_lt (h : Move m w m₁ w') (hrunning : w.phase = .running)
    (hbound : ∀ n item, w.source n = .item item → n < k) :
    w'.rest k + m₁.queue.length < w.rest k + m.queue.length := by
  have htaken := w.rest_taken_le k
  have hleave : ∀ {phase}, phase ≠ .running →
      (({ w with taken := w.taken + 1 } : Worker α).leave phase).rest k < w.rest k :=
    fun hphase => Nat.lt_of_lt_of_le
      (Worker.rest_leave_lt (w := { w with taken := w.taken + 1 }) hrunning hphase) htaken
  cases h with
  | took hhand hgives =>
    have hlt := hbound _ _ hgives
    simp [Worker.rest, Worker.isRunning, hhand, hrunning]
    omega
  | failed =>
    rw [queue_record]
    exact Nat.add_lt_add_right (hleave (by simp)) _
  | drained => exact Nat.add_lt_add_right (hleave (by simp)) _
  | died => exact Nat.add_lt_add_right (hleave (by simp)) _
  | put hhand =>
    simp [Worker.rest, Worker.isRunning, hhand, hrunning]
    omega
  | stopped => exact Nat.add_lt_add_right (Worker.rest_leave_lt hrunning (by simp)) _
  | aborted => exact Nat.add_lt_add_right (Worker.rest_leave_lt hrunning (by simp)) _

theorem rest_lt_of_next? {event : Event} (hnext : m.next? event = some m')
    (hbound : ∀ w ∈ m.workers, ∀ n item, w.source n = .item item → n < k) :
    m'.rest k < m.rest k := by
  obtain ⟨w, m₁, w', hw, hrunning, hmove, rfl⟩ := exists_move_of_next? hnext
  have hlt := hmove.rest_lt hrunning (hbound w (List.mem_of_getElem? hw))
  have hsum := sum_map_set (Worker.rest k) w' hw
  simp only [rest, setWorker, hmove.frame.1]
  omega

theorem Flows.exists_comes (h : Flows sources passed m)
    (hbound : ∀ source ∈ sources, ∀ n item, source n = .item item → n < k)
    (hgoes : ∀ source ∈ sources, ∀ n, source n ≠ .item .stalled) : ∃ r, m.Comes r := by
  -- the moves of the workers and the items that are met lower the bound
  induction hk : m.rest k using Nat.strong_induction_on generalizing m passed with
  | _ bound ih =>
    subst hk
    have hsource : ∀ {m : Merge α} {passed}, Flows sources passed m → ∀ w ∈ m.workers,
        w.source ∈ sources := fun hflows w hw => hflows.origins ▸ List.mem_map.mpr ⟨w, hw, rfl⟩
    rcases hlook : m.look with ⟨m₁, answer⟩
    have hlooks := look_of_look_eq hlook
    have hafter := h.looked hlooks
    have hstart : Runs m 0 (([] : List α).map .item) m := .start
    cases answer with
    | none =>
      have hrest : m₁.rest k = m.rest k := by
        cases hlooks
        rfl
      obtain ⟨event, m₂, hnext⟩ : ∃ event m₂, m₁.next? event = some m₂ := by
        cases hlooks with
        | waits _ hqueue hopen =>
          exact exists_next? (by simpa [hqueue] using h.capacity) hopen
            fun w hw => hgoes _ (hsource h w hw) _
      have hlt := rest_lt_of_next? hnext fun w hw => hbound _ (hsource hafter w hw)
      obtain ⟨r, hr⟩ := ih _ (hrest ▸ hlt) (hafter.moved hnext) rfl
      exact ⟨_, .of_runs ((hstart.waited hlook).moved hnext) hr⟩
    | some answer =>
      cases answer with
      | ended => exact ⟨_, .ended hstart hlook⟩
      | failed e => exact ⟨_, .failed hstart hlook⟩
      | item a =>
        have hlt : m₁.rest k < m.rest k := by
          cases hlooks with
          | item _ hqueue => simp [rest, hqueue]
        obtain ⟨r, hr⟩ := ih _ hlt hafter rfl
        have hrun : Runs m 0 ([a].map .item) m₁ := Runs.start.answered hlook
        exact ⟨_, .of_runs hrun hr⟩

section Items

variable {capacity patience : Nat} {lists : List (List (Item α))} {answers : List (Answer α)}

theorem exists_comes_of_runs (hlists : ∀ items ∈ lists, .stalled ∉ items)
    (hrun : Runs (ofSources capacity patience (lists.map .ofItems)) n answers m) :
    ∃ r, m.Comes r := by
  refine ((flows_ofSources capacity patience (lists.map Source.ofItems)).run hrun).exists_comes
    (k := (lists.map List.length).sum) (fun source hsource n item hitem => ?_)
    fun source hsource n hstalled => ?_
  · obtain ⟨items, hitems, rfl⟩ := List.mem_map.mp hsource
    have hle := List.le_sum_of_mem (List.mem_map_of_mem (f := List.length) hitems)
    refine Nat.lt_of_lt_of_le ?_ hle
    by_contra hlt
    rw [Source.ofItems_eq, List.getElem?_eq_none (Nat.le_of_not_lt hlt)] at hitem
    cases hitem
  · obtain ⟨items, hitems, rfl⟩ := List.mem_map.mp hsource
    rw [Source.ofItems_eq] at hstalled
    cases hget : items[n]? with
    | none => simp [hget] at hstalled
    | some item =>
      obtain rfl : item = .stalled := by simpa [hget] using hstalled
      exact hlists items hitems (List.mem_of_getElem? hget)

/-- At the end the reader was given all values, and nothing stood behind them. -/
theorem of_comes_ok {out : List α}
    (h : (ofSources capacity patience (lists.map .ofItems)).Comes (.ok out)) :
    (∀ items ∈ lists, (Item.readAll items).2 = .complete) ∧
      Shuffle (lists.map fun items => (Item.readAll items).1) out := by
  cases h with
  | ended hrun hlook =>
    have hflows := (flows_ofSources capacity patience (lists.map Source.ofItems)).run hrun
    rw [given_map_item] at hflows
    cases look_of_look_eq hlook with
    | ended hqueue hclosed hfailure =>
      obtain ⟨puts, hshuffle, hover⟩ := hflows.over hclosed hfailure
      rw [hqueue, List.append_nil] at hshuffle
      rw [List.forall₂_map_left_iff] at hover
      have hall := hover.imp fun items put ⟨hgives, hstop⟩ =>
        hgives.complete_of_ended (hstop.resolve_right (Source.ofItems_ne_died items _))
      constructor
      · intro items hitems
        obtain ⟨put, -, hcomplete, -⟩ := exists_mem_of_forall₂ hall hitems
        exact hcomplete
      · suffices heq : puts = lists.map fun items => (Item.readAll items).1 by rwa [← heq]
        rw [← List.forall₂_eq_eq_eq, List.forall₂_map_right_iff]
        exact (hall.imp fun _ _ hput => hput.2).flip

/-- A failure that the reader meets stands in one of the lists, before any other trouble. -/
theorem of_comes_error {e : Failure}
    (h : (ofSources capacity patience (lists.map .ofItems)).Comes (.error e)) :
    ∃ items ∈ lists, (Item.readAll items).2 = .failed e := by
  cases h with
  | @failed _ _ m₁ _ _ hrun hlook =>
    have hflows := (flows_ofSources capacity patience (lists.map Source.ofItems)).run hrun
    have hfailure : m₁.failure = some e := by
      cases look_of_look_eq hlook with
      | raised hfailure => exact hfailure
      | failed hfailure => exact hfailure
      | lost _ hnone hlost =>
        obtain ⟨w, hw, hlost⟩ := List.any_eq_true.mp hlost
        have hphase : w.phase = .lost false := by simpa [Worker.isUnknownLoss] using hlost
        obtain ⟨items, -, hdied⟩ := hflows.diesFirst_of_lost hnone hw hphase
        have hsource : w.source ∈ lists.map Source.ofItems :=
          hflows.origins ▸ List.mem_map.mpr ⟨w, hw, rfl⟩
        obtain ⟨list, -, hlist⟩ := List.mem_map.mp hsource
        exact absurd (hlist ▸ hdied) (Source.ofItems_ne_died list _)
    obtain ⟨source, hsource, hfails⟩ := hflows.failed e hfailure
    obtain ⟨items, hitems, rfl⟩ := List.mem_map.mp hsource
    exact ⟨items, hitems, hfails.failed_of_ofItems⟩

end Items

end Merge

end StoredObjects
