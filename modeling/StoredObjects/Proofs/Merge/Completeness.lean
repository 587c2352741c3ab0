import Mathlib.Algebra.Order.BigOperators.Group.List
import Mathlib.Algebra.Order.Ring.Nat
import StoredObjects.Proofs.Merge.Flow

/-! # Merges of lists

When every source gives a list and ends, the reader of a merge is given a shuffle of the lists and
then the end, for as often as he asks. The workers cannot move for ever before that, and no order of
their moves keeps him from it.
-/

namespace StoredObjects

universe u

variable {α : Type u}

/-! ## Every element once -/

theorem flatten_set_append {lists : List (List α)} {i : Nat} {list : List α}
    (h : lists[i]? = some list) (a : α) :
    (lists.set i (list ++ [a])).flatten.Perm (lists.flatten ++ [a]) := by
  induction lists generalizing i with
  | nil => simp at h
  | cons first lists ih =>
    cases i with
    | zero =>
      obtain rfl := Option.some.inj h
      simp only [List.set_cons_zero, List.flatten_cons, List.append_assoc]
      exact List.perm_append_comm.append_left first
    | succ i =>
      simp only [List.set_cons_succ, List.flatten_cons, List.append_assoc]
      exact (ih h).append_left first

theorem Shuffle.perm {lists : List (List α)} {out : List α} (h : Shuffle lists out) :
    out.Perm lists.flatten := by
  induction h with
  | empty n => simp
  | snoc _ hi ih => exact (ih.append_right _).trans (flatten_set_append hi _).symm

/-! ## Lists as sources -/

namespace Source

variable {list items : List α}

def ofList (list : List α) : Source α := .ofItems (list.map .value)

theorem ofList_of_getElem? {n : Nat} {a : α} (h : list[n]? = some a) :
    ofList list n = .item (.value a) := by
  simp [ofList, ofItems, h]

theorem ofList_of_length_le {n : Nat} (h : list.length ≤ n) : ofList list n = .ended := by
  simp [ofList, ofItems, h]

theorem ofList_cases (list : List α) (n : Nat) :
    (∃ a, list[n]? = some a ∧ ofList list n = .item (.value a)) ∨ ofList list n = .ended := by
  rcases Nat.lt_or_ge n list.length with h | h
  · exact Or.inl ⟨_, List.getElem?_eq_getElem h, ofList_of_getElem? (List.getElem?_eq_getElem h)⟩
  · exact Or.inr (ofList_of_length_le h)

theorem not_failsFirst_ofList (list : List α) (e : Failure) : ¬ (ofList list).FailsFirst e := by
  rintro ⟨items, -, hfailed⟩
  rcases ofList_cases list items.length with ⟨a, -, h⟩ | h <;> rw [h] at hfailed <;> cases hfailed

theorem Gives.prefix_of_ofList (h : (ofList list).Gives items) : items <+: list := by
  rw [List.prefix_iff_getElem?]
  intro i hi
  have hgives := h i _ (List.getElem?_eq_getElem hi)
  rcases ofList_cases list i with ⟨a, ha, hlist⟩ | hlist
  · rw [hlist] at hgives
    cases hgives
    exact ha
  · rw [hlist] at hgives
    cases hgives

theorem Gives.eq_of_ended (h : (ofList list).Gives items)
    (hended : ofList list items.length = .ended) : items = list := by
  have hprefix := h.prefix_of_ofList
  refine hprefix.eq_of_length_le ?_
  by_contra hlt
  rw [ofList_of_getElem? (List.getElem?_eq_getElem (Nat.lt_of_not_le hlt))] at hended
  cases hended

end Source

namespace Merge

/-! ## Some worker can move -/

theorem exists_next? {m : Merge α} (hroom : m.queue.length < m.capacity)
    (hopen : m.isClosed = false)
    (hgoes : ∀ w ∈ m.workers, w.source w.taken ≠ .item .stalled) :
    ∃ e m', m.next? e = some m' := by
  obtain ⟨w, hw, hrunning⟩ : ∃ w ∈ m.workers, w.isRunning = true := by
    simpa [isClosed] using hopen
  obtain ⟨i, hi⟩ := List.mem_iff_getElem?.mp hw
  cases hhand : w.hand with
  | some a =>
    refine ⟨.put i, ?_⟩
    simp [next?, Event.place, hi, hrunning, move?, hhand, hroom]
  | none =>
    refine ⟨.take i, ?_⟩
    have hgoes := hgoes w hw
    simp only [next?, Event.place, hi, hrunning, if_true, move?, hhand, Option.isNone_none, take?]
    split
    · exact ⟨_, rfl⟩
    · exact ⟨_, rfl⟩
    · contradiction
    · exact ⟨_, rfl⟩
    · exact ⟨_, rfl⟩

section Lists

variable {m m' : Merge α} {lists : List (List α)} {passed : List α}

theorem Flows.failure_eq_none (h : Flows (lists.map .ofList) passed m) : m.failure = none := by
  by_contra hsome
  obtain ⟨e, he⟩ := Option.ne_none_iff_exists'.mp hsome
  obtain ⟨source, hsource, hfails⟩ := h.failed e he
  obtain ⟨list, -, rfl⟩ := List.mem_map.mp hsource
  exact Source.not_failsFirst_ofList list e hfails

theorem Flows.ne_lost (h : Flows (lists.map .ofList) passed m) {w : Worker α} (hw : w ∈ m.workers)
    (known : Bool) : w.phase ≠ .lost known := by
  intro hphase
  obtain ⟨puts, hputs, -⟩ := h.shuffled
  obtain ⟨put, -, hhas⟩ := exists_mem_of_forall₂ hputs hw
  obtain ⟨list, -, hlist⟩ := List.mem_map.mp (h.origins ▸ List.mem_map.mpr ⟨w, hw, rfl⟩)
  have hlost := hhas.lost known hphase
  rw [h.failure_eq_none, ← hlist] at hlost
  rcases Source.ofList_cases list put.length with ⟨a, -, hgives⟩ | hgives <;> simp [hgives] at hlost

theorem Flows.ne_stalled (h : Flows (lists.map .ofList) passed m) {w : Worker α}
    (hw : w ∈ m.workers) : w.source w.taken ≠ .item .stalled := by
  obtain ⟨list, -, hlist⟩ := List.mem_map.mp (h.origins ▸ List.mem_map.mpr ⟨w, hw, rfl⟩)
  rw [← hlist]
  rcases Source.ofList_cases list w.taken with ⟨a, -, hgives⟩ | hgives <;> simp [hgives]

theorem Flows.shuffle_of_closed (h : Flows (lists.map .ofList) passed m)
    (hclosed : m.isClosed = true) (hqueue : m.queue = []) : Shuffle lists passed := by
  obtain ⟨puts, hshuffle, hover⟩ := h.over hclosed h.failure_eq_none
  rw [hqueue, List.append_nil] at hshuffle
  suffices heq : lists = puts by rwa [heq]
  rw [List.forall₂_map_left_iff] at hover
  rw [← List.forall₂_eq_eq_eq]
  refine hover.imp fun list put ⟨hgives, hstop⟩ => ?_
  refine (hgives.eq_of_ended (hstop.resolve_right fun hdied => ?_)).symm
  rcases Source.ofList_cases list put.length with ⟨a, -, h⟩ | h <;> rw [h] at hdied <;> cases hdied

theorem Flows.active_eq_zero (h : Flows (lists.map .ofList) passed m)
    (hclosed : m.isClosed = true) : m.active = 0 := by
  have hover : ∀ w ∈ m.workers, w.phase ≠ .running := by
    simpa [isClosed, Worker.isRunning] using hclosed
  rw [active, List.countP_eq_zero]
  intro w hw
  cases hphase : w.phase with
  | running => exact absurd hphase (hover w hw)
  | ended => simp [Worker.isActive, hphase]
  | lost known => exact absurd hphase (h.ne_lost hw known)

inductive Reads (m : Merge α) : Merge α → Option (Answer α) → Prop where
  | item {a : α} {rest : List α} (hqueue : m.queue = a :: rest) :
      Reads m { m with queue := rest, waiting := false } (some (.item a))
  | ended (hqueue : m.queue = []) (hclosed : m.isClosed = true) :
      Reads m { m with waiting := false } (some .ended)
  | waits (hqueue : m.queue = []) (hopen : m.isClosed = false) :
      Reads m { m with waiting := true } none

theorem Flows.reads (h : Flows (lists.map .ofList) passed m) {answer : Option (Answer α)}
    (hlook : m.look = (m', answer)) : Reads m m' answer := by
  have hnone := h.failure_eq_none
  cases look_of_look_eq hlook with
  | item _ hqueue => exact .item hqueue
  | ended hqueue hclosed => exact .ended hqueue hclosed
  | waits _ hqueue hopen => exact .waits hqueue hopen
  | raised hfailure => simp [hnone] at hfailure
  | failed hfailure => simp [hnone] at hfailure
  | lost _ _ hlost =>
    obtain ⟨w, hw, hlost⟩ := List.any_eq_true.mp hlost
    exact absurd (by simpa [Worker.isUnknownLoss] using hlost) (h.ne_lost hw false)

/-! ## Counting the moves -/

/-- A move that is not asked for from outside takes from a source or puts into the queue. -/
theorem Move.counts {m₁ : Merge α} {w w' : Worker α} (h : Move m w m₁ w')
    (hgoing : ¬ (m.cancelled = true ∨ m.abandoned = true)) :
    w'.taken + m₁.queue.length = w.taken + m.queue.length + 1 := by
  cases h with
  | failed =>
    rw [queue_record]
    simp only [Worker.leave]
    omega
  | put => simp; omega
  | stopped hcancelled => exact absurd (Or.inl hcancelled) hgoing
  | aborted habandoned => exact absurd (Or.inr habandoned) hgoing
  | _ =>
    simp only [Worker.leave]
    omega

variable {capacity patience n : Nat} {answers : List (Answer α)}

/-- How often the sources were asked and what went through the queue tell the moves so far. -/
theorem Runs.moves_eq (hrun : Runs (ofSources capacity patience (lists.map .ofList)) n answers m) :
    n = (m.workers.map Worker.taken).sum + (given answers ++ m.queue).length := by
  have hflows := flows_ofSources capacity patience (lists.map Source.ofList)
  induction hrun with
  | start => simp [ofSources, Function.comp_def]
  | @moved n answers m₁ m₂ event hbefore hnext ih =>
    have hbefore := hflows.run hbefore
    obtain ⟨w, m₀, w', hw, -, hmove, rfl⟩ := exists_move_of_next? hnext
    have hgoing : ¬ (m₁.cancelled = true ∨ m₁.abandoned = true) := fun hstop => by
      have hsome := hbefore.stopped hstop
      rw [hbefore.failure_eq_none] at hsome
      cases hsome
    have hcounts := hmove.counts hgoing
    have hsum := sum_map_set Worker.taken w' hw
    simp only [setWorker, hmove.frame.1, List.length_append] at hsum ih ⊢
    omega
  | answered hbefore hlook ih =>
    cases (hflows.run hbefore).reads hlook with
    | item hqueue => simpa [hqueue] using ih
    | ended => simpa using ih
  | waited hbefore hlook ih =>
    cases look_of_look_eq hlook with
    | waits => exact ih

/-- Every element is taken and put once, and the end of each list is met once. -/
theorem Runs.moves_le (hrun : Runs (ofSources capacity patience (lists.map .ofList)) n answers m) :
    n ≤ 2 * lists.flatten.length + lists.length ∧
      (given answers).length ≤ lists.flatten.length := by
  have hflows := (flows_ofSources capacity patience (lists.map Source.ofList)).run hrun
  obtain ⟨puts, hputs, hshuffle⟩ := hflows.shuffled
  have hgiven : (given answers ++ m.queue).length = (puts.map List.length).sum := by
    rw [hshuffle.perm.length_eq, List.length_flatten]
  have htaken : (m.workers.map Worker.taken).sum ≤ (puts.map fun put => put.length + 1).sum := by
    apply List.Forall₂.sum_le_sum
    rw [List.forall₂_map_left_iff, List.forall₂_map_right_iff]
    exact hputs.imp fun _ _ hhas => hhas.taken_le
  have hprefixes : List.Forall₂ (· <+: ·) puts lists := by
    have hgives := hflows.origins ▸ forall₂_gives hputs
    rw [List.forall₂_map_left_iff] at hgives
    exact (hgives.imp fun _ _ h => h.prefix_of_ofList).flip
  have hle : (puts.map List.length).sum ≤ (lists.map List.length).sum := by
    apply List.Forall₂.sum_le_sum
    rw [List.forall₂_map_left_iff, List.forall₂_map_right_iff]
    exact hprefixes.imp fun _ _ h => h.length_le
  have hlength := hprefixes.length_eq
  have hmoves := hrun.moves_eq
  rw [List.sum_map_add] at htaken
  simp only [List.map_const', List.sum_replicate_nat, Nat.mul_one] at htaken
  rw [List.length_append] at hgiven
  rw [List.length_append] at hmoves
  rw [List.length_flatten]
  omega

/-! ## The answers -/

theorem Runs.exists_items
    (hrun : Runs (ofSources capacity patience (lists.map .ofList)) n answers m) :
    ∃ (items : List α) (k : Nat), answers = items.map .item ++ List.replicate k .ended ∧
      (0 < k → m.isClosed = true ∧ m.queue = []) := by
  have hflows := flows_ofSources capacity patience (lists.map Source.ofList)
  induction hrun with
  | start => exact ⟨[], 0, rfl, by simp⟩
  | @moved n answers m₁ m₂ event hbefore hnext ih =>
    obtain ⟨items, k, rfl, hend⟩ := ih
    obtain ⟨w, -, -, hw, hrunning, -⟩ := exists_move_of_next? hnext
    refine ⟨items, k, rfl, fun hk => absurd (hend hk).1 ?_⟩
    simpa [isClosed] using ⟨w, List.mem_of_getElem? hw, by simp [Worker.isRunning, hrunning]⟩
  | @answered n answers m₁ m₂ answer hbefore hlook ih =>
    obtain ⟨items, k, rfl, hend⟩ := ih
    cases (hflows.run hbefore).reads hlook with
    | @item a rest hqueue =>
      obtain rfl : k = 0 := by
        by_contra hk
        rw [(hend (Nat.pos_of_ne_zero hk)).2] at hqueue
        cases hqueue
      exact ⟨items ++ [a], 0, by simp, by simp⟩
    | ended hqueue hclosed =>
      exact ⟨items, k + 1, by simp [List.replicate_succ'], fun _ => ⟨hclosed, hqueue⟩⟩
  | waited hbefore hlook ih =>
    obtain ⟨items, k, rfl, hend⟩ := ih
    cases look_of_look_eq hlook with
    | waits => exact ⟨items, k, rfl, hend⟩

theorem Runs.exists_ended
    (hrun : Runs (ofSources capacity patience (lists.map .ofList)) n answers m) :
    ∃ (n' : Nat) (rest : List α) (m' : Merge α), Runs m n' (rest.map .item ++ [.ended]) m' := by
  -- moves and items are limited, and while the queue is open and empty some worker can move
  induction hk : 3 * lists.flatten.length + lists.length - n - (given answers).length using
    Nat.strong_induction_on generalizing n answers m with
  | _ k ih =>
    subst hk
    have hflows := (flows_ofSources capacity patience (lists.map Source.ofList)).run hrun
    rcases hlook : m.look with ⟨m₁, answer⟩
    have hreads := hflows.reads hlook
    cases hreads with
    | @item a rest hqueue =>
      have hlonger := hrun.answered hlook
      have hgiven : (given (answers ++ [.item a])).length = (given answers).length + 1 := by
        simp
      have hle := hlonger.moves_le
      obtain ⟨n', rest, m', hend⟩ := ih _ (by omega) hlonger rfl
      exact ⟨_, a :: rest, m', (Runs.start.answered hlook).trans hend⟩
    | ended => exact ⟨0, [], _, Runs.start.answered hlook⟩
    | waits hqueue hopen =>
      have hwaiting := hrun.waited hlook
      obtain ⟨event, m₂, hnext⟩ := exists_next? (m := { m with waiting := true })
        (by simpa [hqueue] using hflows.capacity) hopen fun w hw => hflows.ne_stalled hw
      have hlonger := hwaiting.moved hnext
      have hle := hlonger.moves_le
      obtain ⟨n', rest, m', hend⟩ := ih _ (by omega) hlonger rfl
      have hfirst : Runs m 1 [] m₂ := (Runs.start.waited hlook).moved hnext
      exact ⟨_, rest, m', by simpa using hfirst.trans hend⟩

/-- A merge of lists gives a shuffle of them and then its end, again and again, without a failure.
The workers make no more moves than there are elements to take, elements to put and lists to end,
and the reader can always go on to the end. -/
theorem merge_gives_shuffle (capacity patience : Nat) (lists : List (List α)) {n : Nat}
    {answers : List (Answer α)} {m : Merge α}
    (hrun : Runs (ofSources capacity patience (lists.map .ofList)) n answers m) :
    (∃ (items : List α) (k : Nat), answers = items.map .item ++ List.replicate k .ended ∧
      (0 < k → Shuffle lists items ∧ m.look.2 = some .ended ∧ m.hasMore = false ∧ m.active = 0)) ∧
    n ≤ 2 * lists.flatten.length + lists.length ∧
    ∃ (n' : Nat) (rest : List α) (m' : Merge α), Runs m n' (rest.map .item ++ [.ended]) m' := by
  have hflows := (flows_ofSources capacity patience (lists.map Source.ofList)).run hrun
  obtain ⟨items, k, rfl, hend⟩ := hrun.exists_items
  refine ⟨⟨items, k, rfl, fun hk => ?_⟩, hrun.moves_le.1, hrun.exists_ended⟩
  obtain ⟨hclosed, hqueue⟩ := hend hk
  have hgiven : given (items.map .item ++ List.replicate k .ended) = items := by
    simp
  have hactive := hflows.active_eq_zero hclosed
  refine ⟨hgiven ▸ hflows.shuffle_of_closed hclosed hqueue, ?_, by simp [hasMore, hactive, hqueue],
    hactive⟩
  rcases hlook : m.look with ⟨m₁, answer⟩
  cases hflows.reads hlook with
  | item hqueue' => simp [hqueue] at hqueue'
  | ended => rfl
  | waits _ hopen => simp [hclosed] at hopen

end Lists

/-- Two baskets, read one fruit from each in turn. -/
theorem runs_baskets : ∃ m, Runs (ofSources 1 0 ([["apple", "apricot"], ["pear"]].map .ofList)) 8
    [.item "apple", .item "pear", .item "apricot", .ended, .ended] m :=
  ⟨_, ((((((((((((Runs.start.moved (e := .take 0) rfl).moved (e := .put 0) rfl).answered rfl).moved
    (e := .take 1) rfl).moved (e := .put 1) rfl).answered rfl).moved (e := .take 0) rfl).moved
    (e := .put 0) rfl).answered rfl).moved (e := .take 1) rfl).moved (e := .take 0) rfl).answered
    rfl).answered rfl⟩

theorem baskets_shuffled : ∃ m,
    Runs (ofSources 1 0 ([["apple", "apricot"], ["pear"]].map .ofList)) 8
      [.item "apple", .item "pear", .item "apricot", .ended, .ended] m ∧
    Shuffle [["apple", "apricot"], ["pear"]] ["apple", "pear", "apricot"] ∧
    m.look.2 = some .ended ∧ m.hasMore = false ∧ m.active = 0 := by
  obtain ⟨m, hrun⟩ := runs_baskets
  obtain ⟨⟨items, k, hanswers, hend⟩, -, -⟩ :=
    merge_gives_shuffle 1 0 [["apple", "apricot"], ["pear"]] hrun
  have hitems : ["apple", "pear", "apricot"] = items := (congrArg given hanswers).trans (by simp)
  have hlength : 5 = items.length + k := by simpa using congrArg List.length hanswers
  rw [← hitems] at hlength hend
  exact ⟨m, hrun, hend (by simp at hlength; omega)⟩

end Merge

end StoredObjects
