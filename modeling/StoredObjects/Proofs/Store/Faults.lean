import StoredObjects.Proofs.Store.Interleaving

/-! # Runs in which calls fail

Any call may fail, also one that stores in memory would answer, and it then has no effect. What all
calls of a program keep, such a run keeps as well.
-/

namespace StoredObjects

namespace Program

variable {α β : Type}

inductive Disturbed : World → Program α → World → α → Prop where
  | done (w : World) (a : α) : Disturbed w (done a) w a
  | answered {w w' : World} {store : String} {c : Call}
      {next : Except Failure c.Reply → Program α} {a : α}
      (hrest : Disturbed (w.answer store c).1 (next (w.answer store c).2) w' a) :
      Disturbed w (call store c next) w' a
  | failed {w w' : World} {store : String} {c : Call}
      {next : Except Failure c.Reply → Program α} {a : α} (e : Failure)
      (hrest : Disturbed (w.noteFailed store c) (next (.error e)) w' a) :
      Disturbed w (call store c next) w' a

def Results (Q : α → Prop) : Program α → Prop
  | done a => Q a
  | call _ _ next => ∀ r, (next r).Results Q
  termination_by structural p => p

variable {P : String → Call → Prop} {Q : α → Prop} {I : World → Prop}

theorem disturbed_run (w : World) (p : Program α) : Disturbed w p (p.run w).1 (p.run w).2 := by
  induction p generalizing w with
  | done a => exact .done w a
  | call store c next ih => exact .answered (ih _ _)

theorem disturbed_runFailing (n : Nat) (e : Failure) (w : World) (p : Program α) :
    Disturbed w p (p.runFailing n e w).1 (p.runFailing n e w).2 := by
  induction p generalizing n w with
  | done a => exact .done w a
  | call store c next ih =>
    cases n with
    | zero => exact .failed e (disturbed_run _ _)
    | succ n => exact .answered (ih _ n _)

theorem Disturbed.invariant {w w' : World} {p : Program α} {a : α} (h : Disturbed w p w' a)
    (hp : p.Calls P) (hanswer : ∀ w store c, P store c → I w → I (w.answer store c).1)
    (hfail : ∀ w store c, P store c → I w → I (w.noteFailed store c)) (hw : I w) : I w' := by
  induction h with
  | done => exact hw
  | answered hrest ih => exact ih (hp.2 _) (hanswer _ _ _ hp.1 hw)
  | failed e hrest ih => exact ih (hp.2 _) (hfail _ _ _ hp.1 hw)

theorem Disturbed.result {w w' : World} {p : Program α} {a : α} (h : Disturbed w p w' a)
    (hp : p.Results Q) : Q a := by
  induction h with
  | done => exact hp
  | answered hrest ih => exact ih (hp _)
  | failed e hrest ih => exact ih (hp _)

theorem results_true (p : Program α) : p.Results fun _ => True := by
  induction p with
  | done a => trivial
  | call store c next ih => exact ih

theorem Results.bind {R : β → Prop} {p : Program α} {f : α → Program β} (hp : p.Results Q)
    (hf : ∀ a, Q a → (f a).Results R) : (p >>= f).Results R := by
  induction p with
  | done a => exact hf a hp
  | call store c next ih => exact fun r => ih r (hp r)

theorem Calls.bind_of_results {p : Program α} {f : α → Program β} (hp : p.Calls P)
    (hq : p.Results Q) (hf : ∀ a, Q a → (f a).Calls P) : (p >>= f).Calls P := by
  induction p with
  | done a => exact hf a hq
  | call store c next ih => exact ⟨hp.1, fun r => ih r (hp.2 r) (hq r)⟩

end Program

end StoredObjects
