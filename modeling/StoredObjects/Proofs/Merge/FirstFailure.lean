import StoredObjects.Proofs.Merge.Flow

/-! # The first failure of a merge

A merge that has a failing source never comes to its end. Its reader is given items, and from some
time on only the failure that was recorded first, whatever the other sources give and however the
workers move.
-/

namespace StoredObjects

universe u

variable {α : Type u}

namespace Merge

variable {m m' : Merge α} {sources : List (Source α)} {n : Nat} {answers : List (Answer α)}
  {e : Failure}

/-! ## The failure stays -/

theorem failure_of_next? (hfailure : m.failure = some e) {event : Event}
    (hnext : m.next? event = some m') : m'.failure = some e := by
  obtain ⟨w, m₁, w', -, -, hmove, rfl⟩ := exists_move_of_next? hnext
  exact (hmove.failure_eq (by simp [hfailure])).trans hfailure

theorem Look.failure_eq {answer : Option (Answer α)} (h : Look m m' answer) :
    m'.failure = m.failure := by
  cases h <;> rfl

theorem Runs.failure (hrun : Runs m n answers m') (hfailure : m.failure = some e) :
    m'.failure = some e := by
  induction hrun with
  | start => exact hfailure
  | moved _ hmove ih => exact failure_of_next? ih hmove
  | answered _ hlook ih => exact (look_of_look_eq hlook).failure_eq.trans ih
  | waited _ hlook ih => exact (look_of_look_eq hlook).failure_eq.trans ih

/-! ## The answers -/

/-- The reader was told these failures, and nothing since. -/
structure Told (failures : List Failure) (m : Merge α) : Prop where
  recorded : ∀ e ∈ failures, m.failure = some e
  ready : failures ≠ [] → m.waiting = false

variable {failures : List Failure}

theorem Told.moved (h : Told failures m) {event : Event} (hnext : m.next? event = some m') :
    Told failures m' := by
  refine ⟨fun e he => failure_of_next? (h.recorded e he) hnext, fun hne => ?_⟩
  obtain ⟨w, m₁, w', -, -, hmove, rfl⟩ := exists_move_of_next? hnext
  exact hmove.frame.2.2.1.trans (h.ready hne)

theorem Told.eq_nil_of_looked (h : Told failures m)
    (hlooked : m.waiting = true ∨ m.failure = none) : failures = [] := by
  cases failures with
  | nil => rfl
  | cons e failures =>
    have hwaiting := h.ready (by simp)
    have hfailure := h.recorded e (by simp)
    simp [hwaiting, hfailure] at hlooked

theorem Told.snoc (h : Told failures m) (hfailure : m.failure = some e)
    (hm : m'.failure = m.failure) (hwaiting : m'.waiting = false) : Told (failures ++ [e]) m' := by
  refine ⟨fun e' he' => ?_, fun _ => hwaiting⟩
  rcases List.mem_append.mp he' with hmem | hmem
  · exact hm.trans (h.recorded e' hmem)
  · rw [List.mem_singleton.mp hmem]
    exact hm.trans hfailure

/-- With a failing source, the answers are items and after them failures. -/
theorem exists_told {source : Source α} (hsource : source ∈ sources)
    (hfails : source.FailsFirst e) (hflows : Flows sources [] m) (hnew : Told [] m)
    (hrun : Runs m n answers m') : ∃ (items : List α) (failures : List Failure),
      answers = items.map .item ++ failures.map .failed ∧ Told failures m' := by
  induction hrun with
  | start => exact ⟨[], [], rfl, hnew⟩
  | moved _ hmove ih =>
    obtain ⟨items, failures, rfl, htold⟩ := ih
    exact ⟨items, failures, rfl, htold.moved hmove⟩
  | @waited _ _ m₁ _ _ hlook ih =>
    obtain ⟨items, failures, rfl, htold⟩ := ih
    cases look_of_look_eq hlook with
    | waits hlooked =>
      obtain rfl := htold.eq_nil_of_looked hlooked
      exact ⟨items, [], rfl, by simp, by simp⟩
  | @answered _ _ m₁ _ _ hbefore hlook ih =>
    obtain ⟨items, failures, rfl, htold⟩ := ih
    -- once the queue is closed, the failing source has been met
    have hmet : m₁.isClosed = true → m₁.failure ≠ none := fun hclosed =>
      Option.isSome_iff_ne_none.mp ((hflows.run hbefore).isSome_failure hclosed hsource hfails)
    cases look_of_look_eq hlook with
    | @raised e' hfailure hwaiting =>
      exact ⟨items, failures ++ [e'], by simp, htold.snoc hfailure rfl hwaiting⟩
    | @item a rest hlooked =>
      obtain rfl := htold.eq_nil_of_looked hlooked
      exact ⟨items ++ [a], [], by simp, by simp, by simp⟩
    | @failed e' hfailure => exact ⟨items, failures ++ [e'], by simp, htold.snoc hfailure rfl rfl⟩
    | lost hclosed hnone => exact absurd hnone (hmet hclosed)
    | ended _ hclosed hnone => exact absurd hnone (hmet hclosed)

/-- A merge with a failing source gives items first, of each source in order and none from behind
its failure. It does not end, but repeats the failure of a source, the first that was recorded. -/
theorem merge_raises_first_failure (capacity patience : Nat) (sources : List (Source α))
    (hfails : ∃ source ∈ sources, ∃ e, source.FailsFirst e) {n : Nat} {answers : List (Answer α)}
    {m : Merge α} (hrun : Runs (ofSources capacity patience sources) n answers m) :
    ∃ (items : List α) (failures : List Failure),
      answers = items.map .item ++ failures.map .failed ∧
      (∃ fronts, List.Forall₂ Source.Gives sources fronts ∧ Shuffle fronts items) ∧
      ∀ e ∈ failures, m.failure = some e ∧ (∃ source ∈ sources, source.FailsFirst e) ∧
        ∀ n₁ answers₁ m₁ e₁ n₂ answers₂, Runs (ofSources capacity patience sources) n₁ answers₁ m₁ →
          m₁.failure = some e₁ → Runs m₁ n₂ answers₂ m → e₁ = e := by
  have hflows := flows_ofSources capacity patience sources
  obtain ⟨source, hsource, e, hfails⟩ := hfails
  obtain ⟨items, failures, rfl, htold⟩ :=
    exists_told hsource hfails hflows ⟨by simp, by simp⟩ hrun
  have hgiven : given (items.map .item ++ failures.map .failed) = items := by
    simp
  have hreached := hgiven ▸ hflows.run hrun
  refine ⟨items, failures, rfl, hreached.exists_fronts, fun e he => ?_⟩
  have hrecorded := htold.recorded e he
  refine ⟨hrecorded, hreached.failed e hrecorded, ?_⟩
  intro n₁ answers₁ m₁ e₁ n₂ answers₂ _ hfailure hrest
  exact Option.some.inj ((hrest.failure hfailure).symm.trans hrecorded)

/-! A source of fruits that breaks down beside one that never ends. -/

def cutOff : Failure := .connectivity "cursor lost"

def applesCutOff : Source String := .ofItems [.value "apple", .failed cutOff, .value "apricot"]

def endlessPears : Source String := fun _ => .item (.value "pear")

theorem applesCutOff_failsFirst : applesCutOff.FailsFirst cutOff := by
  refine ⟨["apple"], fun i a hi => ?_, rfl⟩
  obtain ⟨hlt, rfl⟩ := List.getElem?_eq_some_iff.mp hi
  obtain rfl : i = 0 := Nat.lt_one_iff.mp hlt
  rfl

theorem runs_applesCutOff : ∃ m, Runs (ofSources 1 0 [applesCutOff, endlessPears]) 6
    [.item "apple", .item "pear", .failed cutOff, .failed cutOff] m :=
  ⟨_, (((((((((Runs.start.moved (e := .take 0) rfl).moved (e := .put 0) rfl).answered rfl).moved
    (e := .take 1) rfl).moved (e := .put 1) rfl).answered rfl).moved (e := .take 1) rfl).moved
    (e := .take 0) rfl).answered rfl).answered rfl⟩

/-- The pears that are still to come do not keep the reader from hearing of the apples. -/
theorem apples_cut_off_reported : ∃ m, Runs (ofSources 1 0 [applesCutOff, endlessPears]) 6
    [.item "apple", .item "pear", .failed cutOff, .failed cutOff] m ∧ m.failure = some cutOff ∧
      ∃ fronts, List.Forall₂ Source.Gives [applesCutOff, endlessPears] fronts ∧
        Shuffle fronts ["apple", "pear"] := by
  obtain ⟨m, hrun⟩ := runs_applesCutOff
  obtain ⟨items, failures, hanswers, hfronts, htold⟩ := merge_raises_first_failure 1 0
    [applesCutOff, endlessPears] ⟨applesCutOff, by simp, cutOff, applesCutOff_failsFirst⟩ hrun
  have htold' : Answer.failed cutOff ∈ items.map Answer.item ++ failures.map Answer.failed :=
    hanswers ▸ by simp
  have hitems : ["apple", "pear"] = items := (congrArg given hanswers).trans (by simp)
  exact ⟨m, hrun, (htold cutOff (by simpa using htold')).1, hitems.symm ▸ hfronts⟩

end Merge

end StoredObjects
