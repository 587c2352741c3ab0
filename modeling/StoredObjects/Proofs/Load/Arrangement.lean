import StoredObjects.Load.Pool

/-! # The orders of a pool

A pool lets an item through when few enough are in front of it. An order in which it can let some of
the items through, if these were all that there is, is also what can be seen of them when there are
others in between: the others can always leave first.
-/

namespace StoredObjects

universe u

variable {α : Type u} {width : Nat} {items out : List α}

/-- The orders in which a window of `width` can let the items through. -/
inductive Arranged (width : Nat) : List α → List α → Prop where
  | nil : Arranged width [] []
  | leave {pre : List α} {a : α} {post out : List α} (hpre : pre.length < max width 1)
      (hrest : Arranged width (pre ++ post) out) : Arranged width (pre ++ a :: post) (a :: out)

theorem arrange_nil (pick : Nat → Nat) (width n : Nat) :
    arrange pick width n ([] : List α) = [] := by
  rw [arrange]
  simp

/-- The item that leaves first stands behind fewer than `width` others. -/
theorem exists_first (pick : Nat → Nat) (width n : Nat) (hne : items ≠ []) :
    ∃ pre a post, items = pre ++ a :: post ∧ pre.length < max width 1 ∧
      pick n % min (max width 1) items.length = pre.length := by
  have hlen : 0 < items.length := List.length_pos_iff.mpr hne
  have hpos : 0 < min (max width 1) items.length := Nat.lt_min.mpr ⟨by omega, hlen⟩
  have hlt := Nat.mod_lt (pick n) hpos
  have hi : pick n % min (max width 1) items.length < items.length := by omega
  refine ⟨_, _, _, (List.take_append_drop _ items).symm.trans
    (congrArg _ (List.drop_eq_getElem_cons hi)), ?_, ?_⟩
  · rw [List.length_take]
    omega
  · rw [List.length_take]
    omega

theorem arrange_append_cons {pick : Nat → Nat} {n : Nat} {pre : List α} {a : α} {post : List α}
    (hpick : pick n % min (max width 1) (pre ++ a :: post).length = pre.length) :
    arrange pick width n (pre ++ a :: post) = a :: arrange pick width (n + 1) (pre ++ post) := by
  have hget : (pre ++ a :: post)[pre.length]? = some a := by simp
  have herase : (pre ++ a :: post).eraseIdx pre.length = pre ++ post := by
    rw [List.eraseIdx_append_of_length_le (Nat.le_refl _)]
    simp
  rw [arrange]
  simp only [hpick]
  split
  · rename_i hnone
    rw [hpick, hget] at hnone
    cases hnone
  · rename_i b hb
    rw [hpick] at hb
    obtain rfl : a = b := Option.some.inj (hget.symm.trans hb)
    rw [herase]

theorem arrange_congr {pick pick' : Nat → Nat} {n : Nat} (items : List α)
    (h : ∀ m, n ≤ m → pick m = pick' m) :
    arrange pick width n items = arrange pick' width n items := by
  induction hlen : items.length generalizing n items with
  | zero =>
    obtain rfl := List.length_eq_zero_iff.mp hlen
    rw [arrange_nil, arrange_nil]
  | succ len ih =>
    have hne : items ≠ [] := List.length_pos_iff.mp (by omega)
    obtain ⟨pre, a, post, rfl, -, hpick⟩ := exists_first pick width n hne
    have hpick' := h n (Nat.le_refl n) ▸ hpick
    have hrest : (pre ++ post).length = len := by
      simp only [List.length_append, List.length_cons] at hlen ⊢
      omega
    rw [arrange_append_cons hpick, arrange_append_cons hpick',
      ih _ (fun m hm => h m (by omega)) hrest]

theorem arranged_arrange (pick : Nat → Nat) (width n : Nat) (items : List α) :
    Arranged width items (arrange pick width n items) := by
  induction hlen : items.length generalizing n items with
  | zero =>
    obtain rfl := List.length_eq_zero_iff.mp hlen
    rw [arrange_nil]
    exact .nil
  | succ len ih =>
    have hne : items ≠ [] := List.length_pos_iff.mp (by omega)
    obtain ⟨pre, a, post, rfl, hpre, hpick⟩ := exists_first pick width n hne
    have hrest : (pre ++ post).length = len := by
      simp only [List.length_append, List.length_cons] at hlen ⊢
      omega
    rw [arrange_append_cons hpick]
    exact .leave hpre (ih (n + 1) _ hrest)

theorem Arranged.exists_arrange (h : Arranged width items out) (n : Nat) :
    ∃ pick, arrange pick width n items = out := by
  induction h generalizing n with
  | nil => exact ⟨fun _ => 0, arrange_nil _ width n⟩
  | @leave pre a post out hpre hrest ih =>
    obtain ⟨pick, hrun⟩ := ih (n + 1)
    refine ⟨fun m => if m = n then pre.length else pick m, ?_⟩
    have hlen : pre.length < min (max width 1) (pre ++ a :: post).length := by
      simp only [List.length_append, List.length_cons]
      omega
    have hsame : arrange (fun m => if m = n then pre.length else pick m) width (n + 1)
        (pre ++ post) = arrange pick width (n + 1) (pre ++ post) :=
      arrange_congr _ fun m hm => if_neg (by omega)
    rw [arrange_append_cons (by simpa using Nat.mod_eq_of_lt hlen), hsame, hrun]

/-- Items in between do not hinder an order of the others. -/
theorem Arranged.of_filter (p : α → Bool) (h : Arranged width (items.filter p) out) :
    ∃ all, Arranged width items all ∧ all.filter p = out := by
  -- the item that is due leaves when only kept ones stand in front of it, and another one before
  induction hlen : items.length using Nat.strongRecOn generalizing items out with
  | _ len ih =>
    subst hlen
    generalize hkept : items.filter p = kept at h
    cases h with
    | nil =>
      cases items with
      | nil => exact ⟨[], .nil, rfl⟩
      | cons x rest =>
        have hnone : ∀ y ∈ x :: rest, ¬ p y = true := List.filter_eq_nil_iff.mp hkept
        have hrest : rest.filter p = [] :=
          List.filter_eq_nil_iff.mpr fun y hy => hnone y (List.mem_cons_of_mem _ hy)
        have hempty : Arranged width (rest.filter p) [] := by
          rw [hrest]
          exact .nil
        obtain ⟨all, hall, hout⟩ := ih rest.length (by simp) hempty rfl
        have hfirst : ([] : List α).length < max width 1 := by
          simp only [List.length_nil]
          omega
        refine ⟨x :: all, Arranged.leave hfirst hall, ?_⟩
        rw [List.filter_cons_of_neg (hnone x List.mem_cons_self), hout]
    | @leave pre a post out hpre hrest =>
      obtain ⟨front, behind, rfl, rfl, hbehind⟩ := List.filter_eq_append_iff.mp hkept
      obtain ⟨gap, back, rfl, hgap, ha, rfl⟩ := List.filter_eq_cons_iff.mp hbehind
      have hgapNil : gap.filter p = [] := List.filter_eq_nil_iff.mpr hgap
      have hfront : (front ++ gap).filter p = front.filter p := by simp [hgapNil]
      cases hfind : (front ++ gap).find? fun x => !p x with
      | none =>
        have hall : ∀ x ∈ front ++ gap, p x = true := by simpa using List.find?_eq_none.mp hfind
        have hlen : (front ++ gap).length < max width 1 := by
          rwa [← List.filter_eq_self.mpr hall, hfront]
        have hrest' : Arranged width ((front ++ gap ++ back).filter p) out := by
          rwa [List.filter_append, hfront]
        obtain ⟨all, hleft, rfl⟩ := ih (front ++ gap ++ back).length (by simp) hrest' rfl
        refine ⟨a :: all, ?_, List.filter_cons_of_pos ha⟩
        rw [← List.append_assoc]
        exact .leave hlen hleft
      | some x =>
        obtain ⟨hx, before, after, hsplit, hbefore⟩ := List.find?_eq_some_iff_append.mp hfind
        have hx : ¬ p x = true := by simpa using hx
        have hbefore : ∀ y ∈ before, p y = true := by simpa using hbefore
        have hsame : front.filter p = before ++ after.filter p := by
          rw [← hfront, hsplit, List.filter_append, List.filter_eq_self.mpr hbefore,
            List.filter_cons_of_neg hx]
        have hlen : before.length < max width 1 := by
          rw [hsame, List.length_append] at hpre
          omega
        have hrest' : Arranged width ((before ++ (after ++ a :: back)).filter p) (a :: out) := by
          have hleave := Arranged.leave (a := a) hpre hrest
          rw [hsame] at hleave
          simpa [List.filter_eq_self.mpr hbefore, ha] using hleave
        have hitems : front ++ (gap ++ a :: back) = before ++ x :: (after ++ a :: back) := by
          rw [← List.append_assoc, hsplit]
          simp
        obtain ⟨all, hleft, hout⟩ := ih (before ++ (after ++ a :: back)).length
          (by simp [hitems]) hrest' rfl
        refine ⟨x :: all, ?_, ?_⟩
        · rw [hitems]
          exact .leave hlen hleft
        · rw [List.filter_cons_of_neg hx, hout]

end StoredObjects
