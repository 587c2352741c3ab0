import Mathlib.Algebra.Order.BigOperators.Group.List
import Mathlib.Algebra.Order.Group.Nat
import Mathlib.Data.List.Induction
import StoredObjects.Proofs.Merge.FirstFailure

/-! # Items under way in a merge

A merge takes only so many items ahead of its reader. Of the pulls at the sources, each was passed
on to the reader, has its item in the queue or in the hand of a worker, or came to nothing. A worker
for which a pull comes to nothing is over, and one that is over has nothing in hand, so that beside
the places in the queue there is one pull for each worker. This does not change when the workers are
asked to stop or given up, nor when the reader is gone.
-/

namespace StoredObjects

universe u

variable {α : Type u}

def Pull.isItem : Pull α → Bool
  | .item (.value _) => true
  | .item (.failed _) | .item .stalled | .ended | .died => false

namespace Merge

namespace Worker

variable (w : Worker α)

def items : Nat := (List.range w.taken).countP fun n => (w.source n).isItem

def held : Nat := w.hand.toList.length

def retired : Nat := if w.isRunning then 0 else 1

theorem held_le (w : Worker α) : w.held ≤ 1 := by
  unfold held
  cases w.hand <;> simp

theorem retired_of_running {w : Worker α} (h : w.phase = .running) : w.retired = 0 := by
  simp [retired, isRunning, h]

theorem retired_of_ne_running {w : Worker α} (h : w.phase ≠ .running) : w.retired = 1 := by
  simp [retired, isRunning, h]

end Worker

variable {m m' m₀ m₁ : Merge α} {w w' : Worker α} {present : Bool} {answers : List (Answer α)}
  {passed discarded spent : Nat}

def total (g : Worker α → Nat) (m : Merge α) : Nat := (m.workers.map g).sum

def itemsTaken (m : Merge α) : Nat := m.total Worker.items

/-- All pulls at the sources, also those that met a failure or an end. -/
def asked (m : Merge α) : Nat := m.total Worker.taken

/-! ## Reachable states -/

/-- What a merge can come to, and the answers that its reader was given until then; `present` as
long as he is there. His calls may run out of time, and he may give them up. When he is gone, so is
the queue; the workers are given up, and an item that one of them still has in hand is refused. -/
inductive Reached (m₀ : Merge α) : Bool → List (Answer α) → Merge α → Prop where
  | start : Reached m₀ true [] m₀
  | moved {present : Bool} {answers : List (Answer α)} {m m' : Merge α} {e : Event}
      (h : Reached m₀ present answers m) (hmove : m.next? e = some m')
      (hqueue : present = true ∨ m'.queue = m.queue) : Reached m₀ present answers m'
  | answered {answers : List (Answer α)} {m m' : Merge α} {answer : Answer α}
      (h : Reached m₀ true answers m) (hlook : m.look = (m', some answer)) :
      Reached m₀ true (answers ++ [answer]) m'
  | waited {answers : List (Answer α)} {m m' : Merge α} (h : Reached m₀ true answers m)
      (hlook : m.look = (m', none)) : Reached m₀ true answers m'
  | timedOut {answers : List (Answer α)} {m : Merge α} (h : Reached m₀ true answers m)
      (hwaiting : m.waiting = true) : Reached m₀ true (answers ++ [m.timeOut.2]) m.timeOut.1
  | gaveUp {answers : List (Answer α)} {m : Merge α} (h : Reached m₀ true answers m) :
      Reached m₀ true answers { m with waiting := false }
  | left {answers : List (Answer α)} {m : Merge α} (h : Reached m₀ true answers m) :
      Reached m₀ false answers { m with queue := [], waiting := false, abandoned := true }
  | refused {answers : List (Answer α)} {m : Merge α} {i : Nat} {w : Worker α}
      (h : Reached m₀ false answers m) (hw : m.workers[i]? = some w) (hrunning : w.phase = .running)
      (hhand : w.hand.isSome = true) : Reached m₀ false answers (m.setWorker i (w.leave .ended))

/-! ## The ledger -/

/-- Every pull was `passed` on, is on its way, was `discarded` with the queue, or is `spent`. -/
structure Ledger (capacity count : Nat) (present : Bool) (passed discarded spent : Nat)
    (m : Merge α) : Prop where
  sameCapacity : m.capacity = capacity
  sameCount : m.workers.length = count
  divided : m.asked = passed + m.queue.length + discarded + m.total Worker.held + spent
  room : m.queue.length + discarded ≤ capacity
  kept : present = true → discarded = 0
  spent_le : spent ≤ m.total Worker.retired
  single : ∀ w ∈ m.workers, w.held + w.retired ≤ 1

variable {capacity count : Nat}

theorem ledger_ofSources (capacity patience : Nat) (sources : List (Source α)) :
    Ledger (max capacity 1) sources.length true 0 0 0 (ofSources capacity patience sources) := by
  have hzero : ∀ g : Worker α → Nat, (∀ source, g { source } = 0) →
      (ofSources capacity patience sources).total g = 0 := by
    intro g hg
    simp [total, ofSources, Function.comp_def, hg]
  refine ⟨rfl, by simp [ofSources], ?_, Nat.zero_le _, fun _ => rfl, Nat.zero_le _, ?_⟩
  · rw [asked, hzero _ fun _ => rfl, hzero _ fun _ => rfl]
    rfl
  · intro w hw
    obtain ⟨source, -, rfl⟩ := List.mem_map.mp hw
    exact Nat.zero_le 1

theorem total_setWorker {i : Nat} (hw : m.workers[i]? = some w) (g : Worker α → Nat)
    (w' : Worker α) : (m.setWorker i w').total g + g w = m.total g + g w' :=
  sum_map_set g w' hw

/-- When a worker goes from `w` to `w'`, each pull of its stays in its hand, comes into the queue or
is spent, which happens to one pull at most, and when the worker leaves. -/
def Balanced (m : Merge α) (w : Worker α) (m₁ : Merge α) (w' : Worker α) : Prop :=
  ∃ spent, w'.taken + w.held + m.queue.length = w.taken + w'.held + m₁.queue.length + spent ∧
    spent + w.retired ≤ w'.retired ∧ w'.held + w'.retired ≤ 1

section Running

variable (hrunning : w.phase = .running)
include hrunning

theorem balanced_leave {taken : Nat} {phase : Phase} (hphase : phase ≠ .running)
    (hspent : taken + w.held ≤ w.taken + 1) (htaken : w.taken ≤ taken)
    (hqueue : m₁.queue = m.queue) :
    Balanced m w m₁ (({ w with taken } : Worker α).leave phase) := by
  have hretired := Worker.retired_of_running hrunning
  have hretired' : (({ w with taken } : Worker α).leave phase).retired = 1 :=
    Worker.retired_of_ne_running hphase
  refine ⟨taken + w.held - w.taken, ?_, by omega, ?_⟩
  · change taken + w.held + m.queue.length = w.taken + 0 + m₁.queue.length + _
    rw [hqueue]
    omega
  · change 0 + _ ≤ 1
    omega

theorem Move.balanced (h : Move m w m₁ w') : Balanced m w m₁ w' := by
  have hretired := Worker.retired_of_running hrunning
  have hheld := w.held_le
  cases h with
  | @took a hhand =>
    have hheld : w.held = 0 := by simp [Worker.held, hhand]
    refine ⟨0, ?_, (Nat.zero_add _).le, ?_⟩
    · change w.taken + 1 + w.held + m.queue.length = w.taken + 1 + m.queue.length + 0
      omega
    · change 1 + w.retired ≤ 1
      omega
  | @put a hhand hroom =>
    have hheld : w.held = 1 := by simp [Worker.held, hhand]
    refine ⟨0, ?_, (Nat.zero_add _).le, ?_⟩
    · change w.taken + w.held + m.queue.length = w.taken + 0 + (m.queue ++ [a]).length + 0
      rw [List.length_append, List.length_singleton]
      omega
    · change 0 + w.retired ≤ 1
      omega
  | @failed e hhand =>
    have hheld : w.held = 0 := by simp [Worker.held, hhand]
    exact balanced_leave hrunning (by simp) (by omega) (by omega) (queue_record m e)
  | drained hhand =>
    have hheld : w.held = 0 := by simp [Worker.held, hhand]
    exact balanced_leave hrunning (by simp) (by omega) (by omega) rfl
  | died hhand =>
    have hheld : w.held = 0 := by simp [Worker.held, hhand]
    exact balanced_leave hrunning (by simp) (by omega) (by omega) rfl
  | stopped => exact balanced_leave hrunning (by simp) (by omega) le_rfl rfl
  | aborted => exact balanced_leave hrunning (by simp) (by omega) le_rfl rfl

end Running

theorem Ledger.balanced (h : Ledger capacity count present passed discarded spent m) {i : Nat}
    (hw : m.workers[i]? = some w) (hbalanced : Balanced m w m₁ w')
    (hworkers : m₁.workers = m.workers) (hcapacity : m₁.capacity = m.capacity)
    (hroom : m₁.queue.length + discarded ≤ capacity) :
    ∃ spent, Ledger capacity count present passed discarded spent (m₁.setWorker i w') := by
  obtain ⟨gone, hpulls, hretired, hsingle⟩ := hbalanced
  have hsum : ∀ g : Worker α → Nat, (m₁.setWorker i w').total g + g w = m.total g + g w' := by
    intro g
    rw [total_setWorker (hworkers ▸ hw) g w', total, hworkers, total]
  have hasked := hsum Worker.taken
  have hhands := hsum Worker.held
  have hretirements := hsum Worker.retired
  have hdivided := h.divided
  have hspent := h.spent_le
  refine ⟨spent + gone, hcapacity.trans h.sameCapacity, ?_, ?_, hroom, h.kept, by omega, ?_⟩
  · simp [setWorker, hworkers, h.sameCount]
  · rw [asked] at hdivided ⊢
    change _ = passed + m₁.queue.length + discarded + _ + _
    omega
  · intro u hu
    rcases List.mem_or_eq_of_mem_set hu with hu | rfl
    · exact h.single u (hworkers ▸ hu)
    · exact hsingle

theorem Move.room (h : Move m w m₁ w') (hroom : m.queue.length ≤ m.capacity) :
    m₁.queue.length ≤ m.capacity := by
  cases h with
  | put hhand hlt => simpa [Nat.succ_le_iff] using hlt
  | failed => rwa [queue_record]
  | _ => exact hroom

theorem Ledger.moved (h : Ledger capacity count present passed discarded spent m) {e : Event}
    (hnext : m.next? e = some m') (hqueue : present = true ∨ m'.queue = m.queue) :
    ∃ spent, Ledger capacity count present passed discarded spent m' := by
  obtain ⟨w, m₁, w', hw, hrunning, hmove, rfl⟩ := exists_move_of_next? hnext
  obtain ⟨hworkers, hcapacity, -, -⟩ := hmove.frame
  have hroom := h.room
  refine h.balanced hw (hmove.balanced hrunning) hworkers hcapacity ?_
  rcases hqueue with hpresent | hsame
  · have hnone := h.kept hpresent
    have hput := hmove.room (h.sameCapacity ▸ Nat.le_of_add_right_le hroom)
    rw [h.sameCapacity] at hput
    omega
  · have hsame : m₁.queue = m.queue := hsame
    rwa [hsame]

theorem Ledger.refused (h : Ledger capacity count present passed discarded spent m) {i : Nat}
    (hw : m.workers[i]? = some w) (hrunning : w.phase = .running) :
    ∃ spent, Ledger capacity count present passed discarded spent
      (m.setWorker i (w.leave .ended)) := by
  have hheld := w.held_le
  exact h.balanced hw (balanced_leave hrunning (by simp) (by omega) le_rfl rfl) rfl rfl h.room

/-- What the reader knows and the signals to the workers do not matter. -/
theorem Ledger.elsewhere (h : Ledger capacity count present passed discarded spent m)
    (failure : Option Failure) (cancelled abandoned waiting : Bool) :
    Ledger capacity count present passed discarded spent
      { m with failure, cancelled, abandoned, waiting } :=
  ⟨h.sameCapacity, h.sameCount, h.divided, h.room, h.kept, h.spent_le, h.single⟩

theorem Ledger.reported (h : Ledger capacity count present passed discarded spent m) :
    Ledger capacity count present passed discarded spent
      { m with workers := reported m.workers } := by
  have hmap : ∀ g : Worker α → Nat,
      (∀ w, w.isUnknownLoss = true → g { w with phase := .lost true } = g w) →
      (Merge.reported m.workers).map g = m.workers.map g := fun g hg => map_reported hg m.workers
  have hretired : ∀ w : Worker α, w.isUnknownLoss = true →
      ({ w with phase := .lost true } : Worker α).retired = w.retired := by
    intro w hw
    have hphase : w.phase = .lost false := by simpa [Worker.isUnknownLoss] using hw
    simp [Worker.retired, Worker.isRunning, hphase]
  refine ⟨h.sameCapacity, ?_, ?_, h.room, h.kept, ?_, ?_⟩
  · have hlength := congrArg List.length (hmap (fun _ => 0) fun _ _ => rfl)
    rw [List.length_map, List.length_map] at hlength
    exact hlength.trans h.sameCount
  · have hdivided := h.divided
    simp only [asked, total] at hdivided ⊢
    rwa [hmap _ fun _ _ => rfl, hmap _ fun _ _ => rfl]
  · have hspent := h.spent_le
    simp only [total] at hspent ⊢
    rwa [hmap _ hretired]
  · have hsingle := h.single
    rw [← List.forall_mem_map (P := fun n => n ≤ 1)] at hsingle ⊢
    rwa [hmap]
    intro w hw
    simp only [hretired w hw]
    rfl

theorem Ledger.looked (h : Ledger capacity count true passed discarded spent m)
    {answer : Option (Answer α)} (hlook : Look m m' answer) :
    Ledger capacity count true (passed + (given answer.toList).length) discarded spent m' := by
  cases hlook with
  | item hlooked hqueue =>
    have hdivided := h.divided
    have hroom := h.room
    rw [hqueue, List.length_cons] at hdivided hroom
    refine ⟨h.sameCapacity, h.sameCount, ?_, ?_, h.kept, h.spent_le, h.single⟩
    · change m.asked = passed + 1 + _ + _ + m.total Worker.held + _
      simp only
      omega
    · simp only
      omega
  | lost => exact h.reported.elsewhere _ _ _ _
  | raised => exact h.elsewhere _ _ _ _
  | _ => exact h.elsewhere _ _ _ _

theorem Ledger.left (h : Ledger capacity count true passed discarded spent m) :
    Ledger capacity count false passed (m.queue.length + discarded) spent
      { m with queue := [], waiting := false, abandoned := true } := by
  have hdivided := h.divided
  have hroom := h.room
  refine ⟨h.sameCapacity, h.sameCount, ?_, ?_, by simp, h.spent_le, h.single⟩
  · change m.asked = passed + 0 + _ + m.total Worker.held + _
    omega
  · change 0 + _ ≤ capacity
    omega

theorem Reached.ledger (hrun : Reached m₀ present answers m)
    (h : Ledger capacity count true 0 0 0 m₀) : ∃ discarded spent,
      Ledger capacity count present (given answers).length discarded spent m := by
  induction hrun with
  | start => exact ⟨0, 0, h⟩
  | moved _ hmove hqueue ih =>
    obtain ⟨discarded, spent, hledger⟩ := ih
    exact ⟨discarded, hledger.moved hmove hqueue⟩
  | answered _ hlook ih =>
    obtain ⟨discarded, spent, hledger⟩ := ih
    exact ⟨discarded, spent, by simpa using hledger.looked (look_of_look_eq hlook)⟩
  | waited _ hlook ih =>
    obtain ⟨discarded, spent, hledger⟩ := ih
    exact ⟨discarded, spent, by simpa using hledger.looked (look_of_look_eq hlook)⟩
  | @timedOut answers m _ _ ih =>
    obtain ⟨discarded, spent, hledger⟩ := ih
    have hgiven : given (answers ++ [m.timeOut.2]) = given answers := by simp [timeOut]
    rw [hgiven]
    exact ⟨discarded, spent, hledger.elsewhere m.failure true true false⟩
  | gaveUp _ ih =>
    obtain ⟨discarded, spent, hledger⟩ := ih
    exact ⟨discarded, spent, hledger.elsewhere _ _ _ _⟩
  | left _ ih =>
    obtain ⟨discarded, spent, hledger⟩ := ih
    exact ⟨_, spent, hledger.left⟩
  | refused _ hw hrunning _ ih =>
    obtain ⟨discarded, spent, hledger⟩ := ih
    exact ⟨discarded, hledger.refused hw hrunning⟩

theorem sum_held_add_retired_le {workers : List (Worker α)}
    (h : ∀ w ∈ workers, w.held + w.retired ≤ 1) :
    (workers.map Worker.held).sum + (workers.map Worker.retired).sum ≤ workers.length := by
  rw [← List.sum_map_add]
  simpa using List.sum_le_card_nsmul (workers.map fun w => w.held + w.retired) 1 (by simpa using h)

theorem Ledger.asked_le (h : Ledger capacity count present passed discarded spent m) :
    m.asked ≤ passed + (capacity + count) := by
  have hdivided := h.divided
  have hroom := h.room
  have hspent := h.spent_le
  have hworkers := sum_held_add_retired_le h.single
  rw [h.sameCount] at hworkers
  simp only [total] at hdivided hspent
  omega

theorem itemsTaken_le_asked (m : Merge α) : m.itemsTaken ≤ m.asked := by
  refine List.sum_le_sum fun w _ => ?_
  have hle := List.countP_le_length (p := fun n => (w.source n).isItem) (l := List.range w.taken)
  rwa [List.length_range] at hle

/-! ## Reading ahead -/

structure Worker.Ready (w : Worker α) : Prop where
  running : w.phase = .running
  free : w.hand = none
  next : ∃ a, w.source w.taken = .item (.value a)

theorem Worker.items_succ (hnext : ∃ a, w.source w.taken = .item (.value a)) (hand : Option α) :
    ({ w with taken := w.taken + 1, hand } : Worker α).items = w.items + 1 := by
  obtain ⟨a, ha⟩ := hnext
  simp [Worker.items, List.range_succ, List.countP_append, ha, Pull.isItem]

theorem Reached.took (h : Reached m₀ true answers m) {i : Nat} (hw : m.workers[i]? = some w)
    (hrunning : w.phase = .running) (hfree : w.hand = none) {a : α}
    (hnext : w.source w.taken = .item (.value a)) : Reached m₀ true answers
      (m.setWorker i { w with taken := w.taken + 1, hand := some a }) := by
  refine h.moved (e := .take i) ?_ (Or.inl rfl)
  simp [next?, Event.place, hw, Worker.isRunning, hrunning, move?, hfree, take?, hnext]

theorem Reached.put (h : Reached m₀ true answers m) {i : Nat} (hw : m.workers[i]? = some w)
    (hrunning : w.phase = .running) {a : α} (hhand : w.hand = some a)
    (hroom : m.queue.length < m.capacity) : Reached m₀ true answers
      { m.setWorker i { w with hand := none } with queue := m.queue ++ [a] } := by
  refine h.moved (e := .put i) ?_ (Or.inl rfl)
  simp [next?, Event.place, hw, Worker.isRunning, hrunning, move?, hhand, hroom]

theorem Reached.exists_all_took {done todo : List (Worker α)} (h : Reached m₀ true answers m)
    (hworkers : m.workers = done ++ todo) (hready : ∀ w ∈ todo, w.Ready) :
    ∃ m', Reached m₀ true answers m' ∧ m'.itemsTaken = m.itemsTaken + todo.length := by
  induction todo generalizing m done with
  | nil => exact ⟨m, h, rfl⟩
  | cons w todo ih =>
    obtain ⟨hrunning, hfree, hnext⟩ := hready w List.mem_cons_self
    obtain ⟨a, ha⟩ := id hnext
    have hw : m.workers[done.length]? = some w := by simp [hworkers]
    have hrest : (m.workers.set done.length { w with taken := w.taken + 1, hand := some a }) =
        done ++ [{ w with taken := w.taken + 1, hand := some a }] ++ todo := by
      simp [hworkers, List.set_append_right]
    obtain ⟨m', hm', hitems⟩ := ih (h.took hw hrunning hfree ha) hrest
      fun w hw => hready w (List.mem_cons_of_mem _ hw)
    have htotal := total_setWorker hw Worker.items { w with taken := w.taken + 1, hand := some a }
    rw [Worker.items_succ hnext] at htotal
    refine ⟨m', hm', hitems.trans ?_⟩
    rw [List.length_cons]
    simp only [itemsTaken] at htotal ⊢
    omega

theorem Reached.exists_filled {source : Source α} {workers : List (Worker α)} {items : List α}
    (h : Reached m₀ true answers { m with workers := { source } :: workers, queue := [] })
    (hgives : source.Gives items) (hlength : items.length ≤ m.capacity) :
    Reached m₀ true answers
      { m with workers := { source, taken := items.length } :: workers, queue := items } := by
  induction items using List.reverseRecOn with
  | nil => exact h
  | append_singleton items a ih =>
    have hlt : items.length < m.capacity := by simpa [Nat.succ_le_iff] using hlength
    have hfilled := ih (hgives.front (List.prefix_append _ _)) hlt.le
    have hnext := hgives items.length a (by simp)
    have htook := hfilled.took (i := 0) rfl rfl rfl hnext
    have hput := htook.put (i := 0) rfl rfl rfl hlt
    simpa [setWorker] using hput

theorem Worker.items_of_gives {source : Source α} {items : List α} (h : source.Gives items) :
    ({ source, taken := items.length } : Worker α).items = items.length := by
  have hall : ∀ n ∈ List.range items.length, (source n).isItem = true := by
    intro n hn
    have hget := List.getElem?_eq_getElem (List.mem_range.mp hn)
    rw [h n _ hget]
    rfl
  exact (List.countP_eq_length.mpr hall).trans List.length_range

/-- The queue fills up, and each worker has one more item in hand. -/
theorem exists_reached_ahead (capacity patience : Nat) {sources : List (Source α)}
    (hsome : sources ≠ []) (hgive : ∀ source ∈ sources, ∃ items, source.Gives items ∧
      max capacity 1 < items.length) :
    ∃ m, (ofSources capacity patience sources).Reached true [] m ∧
      m.itemsTaken = max capacity 1 + sources.length := by
  obtain ⟨source, others, rfl⟩ := List.exists_cons_of_ne_nil hsome
  obtain ⟨items, hitems, hlong⟩ := hgive source List.mem_cons_self
  obtain ⟨front, rest, rfl, hfront⟩ : ∃ front rest, items = front ++ rest ∧
      front.length = max capacity 1 :=
    ⟨items.take (max capacity 1), items.drop (max capacity 1), (List.take_append_drop ..).symm,
      by rw [List.length_take]; omega⟩
  have hstart : (ofSources capacity patience (source :: others)).Reached true []
      { ofSources capacity patience (source :: others) with
        workers := { source } :: others.map fun source => { source }, queue := [] } := .start
  have hfilled := hstart.exists_filled (hitems.front (List.prefix_append front rest)) hfront.le
  have hready : ∀ w ∈ ({ source, taken := front.length } : Worker α) ::
      others.map fun source => { source }, w.Ready := by
    intro w hw
    rcases List.mem_cons.mp hw with rfl | hw
    · have hget := List.getElem?_eq_getElem (hfront ▸ hlong)
      exact ⟨rfl, rfl, _, hitems _ _ hget⟩
    · obtain ⟨other, hother, rfl⟩ := List.mem_map.mp hw
      obtain ⟨items', hitems', hlong'⟩ := hgive other (List.mem_cons_of_mem _ hother)
      have hget := List.getElem?_eq_getElem (Nat.zero_lt_of_lt hlong')
      exact ⟨rfl, rfl, _, hitems' _ _ hget⟩
  obtain ⟨m, hm, htaken⟩ := hfilled.exists_all_took (List.nil_append _).symm hready
  refine ⟨m, hm, htaken.trans ?_⟩
  have hfirst := Worker.items_of_gives (hitems.front (List.prefix_append front rest))
  have hothers : ((others.map fun source => ({ source } : Worker α)).map Worker.items).sum = 0 := by
    simp [Worker.items, Function.comp_def]
  simp only [itemsTaken, total, List.map_cons, List.sum_cons, hfirst, hothers, List.length_cons,
    List.length_map]
  omega

/-- Whoever moves when, and whatever fails, runs out of time or is given up: the items that were
taken from the sources, and even all pulls at them, outnumber those that the reader was given by no
more than the places in the queue and the sources. Sources with items enough can come to that before
the reader asks. -/
theorem fan_in_bounded (capacity patience : Nat) (sources : List (Source α)) :
    (∀ present answers m, (ofSources capacity patience sources).Reached present answers m →
      m.itemsTaken ≤ m.asked ∧
        m.asked ≤ (given answers).length + (max capacity 1 + sources.length)) ∧
    (sources ≠ [] →
      (∀ source ∈ sources, ∃ items, source.Gives items ∧ max capacity 1 < items.length) →
      ∃ m, (ofSources capacity patience sources).Reached true [] m ∧
        m.itemsTaken = max capacity 1 + sources.length) := by
  refine ⟨fun present answers m hm => ⟨itemsTaken_le_asked m, ?_⟩,
    exists_reached_ahead capacity patience⟩
  obtain ⟨discarded, spent, hledger⟩ := hm.ledger (ledger_ofSources capacity patience sources)
  exact hledger.asked_le

/-- Of two sources of pears, a queue for one pear lets three be taken, and no more. -/
theorem three_pears_under_way :
    ∃ m, (ofSources 1 0 [endlessPears, endlessPears]).Reached true [] m ∧
      m.itemsTaken = 3 ∧ m.asked ≤ 3 := by
  obtain ⟨hbounded, hahead⟩ := fan_in_bounded 1 0 [endlessPears, endlessPears]
  have hgives : endlessPears.Gives ["pear", "pear"] := by
    intro i a hi
    have hmem := List.mem_of_getElem? hi
    obtain rfl : a = "pear" := by simpa using hmem
    rfl
  obtain ⟨m, hm, htaken⟩ := hahead (by simp) fun source hsource => by
    obtain rfl : source = endlessPears := by simpa using hsource
    exact ⟨_, hgives, by decide⟩
  exact ⟨m, hm, htaken, (hbounded true [] m hm).2⟩

end Merge

end StoredObjects
