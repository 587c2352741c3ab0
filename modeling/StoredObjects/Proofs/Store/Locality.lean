import StoredObjects.Proofs.Load.Calls

/-! # Programs that stay in one store

A program that calls one store only sees nothing of the others and changes nothing in them. What is
left of it comes to the same, whatever happens to the other stores in between.
-/

namespace StoredObjects

namespace World

variable {w w' : World} {key key' : String}

theorem store_answer_self (w : World) (key : String) (c : Call) :
    (w.answer key c).1.store key = ((w.store key).answer c).1 := store_setStore_self _ _ _

theorem store_answer_of_ne (w : World) (c : Call) (h : key' ≠ key) :
    (w.answer key c).1.store key' = w.store key' := store_setStore_of_ne _ _ h

theorem reply_answer_congr (h : w.store key = w'.store key) (c : Call) :
    (w.answer key c).2 = (w'.answer key c).2 := by
  unfold answer
  rw [h]

end World

namespace Program

variable {α β : Type} {p p' : Program α} {w w' : World} {key key' : String}

def Within (key : String) (p : Program α) : Prop := p.Calls fun store _ => store = key

theorem Within.step (hp : p.Within key) (h : p.step? w = some (p', w')) : p'.Within key := by
  cases p with
  | done a => cases h
  | call store c next =>
    obtain ⟨rfl, rfl⟩ := Prod.mk.inj (Option.some.inj h)
    exact hp.2 _

theorem Within.store_step (hp : p.Within key) (h : p.step? w = some (p', w')) (hne : key' ≠ key) :
    w'.store key' = w.store key' := by
  cases p with
  | done a => cases h
  | call store c next =>
    obtain ⟨rfl, rfl⟩ := Prod.mk.inj (Option.some.inj h)
    obtain rfl : store = key := hp.1
    exact World.store_answer_of_ne w c hne

theorem run_eq_of_step (h : p.step? w = some (p', w')) : p'.run w' = p.run w := by
  cases p with
  | done a => cases h
  | call store c next =>
    obtain ⟨rfl, rfl⟩ := Prod.mk.inj (Option.some.inj h)
    rfl

theorem inMemory_step (hw : w.InMemory) (h : p.step? w = some (p', w')) : w'.InMemory := by
  cases p with
  | done a => cases h
  | call store c next =>
    obtain ⟨rfl, rfl⟩ := Prod.mk.inj (Option.some.inj h)
    exact hw.answer store c

theorem Within.step_congr (hp : p.Within key) (h : w.store key = w'.store key) {w₁ : World}
    (hstep : p.step? w = some (p', w₁)) :
    ∃ w₁', p.step? w' = some (p', w₁') ∧ w₁.store key = w₁'.store key := by
  cases p with
  | done a => cases hstep
  | call store c next =>
    obtain ⟨rfl, rfl⟩ := Prod.mk.inj (Option.some.inj hstep)
    obtain rfl : store = key := hp.1
    have hreply := (World.reply_answer_congr h c).symm
    refine ⟨(w'.answer store c).1, ?_, ?_⟩
    · exact congrArg (fun r => some (next r, (w'.answer store c).1)) hreply
    · exact (World.store_answer_self w store c).trans
        ((congrArg (fun s => (s.answer c).1) h).trans (World.store_answer_self w' store c).symm)

/-- What the program comes to, and how it leaves its store, depends on its store alone. -/
theorem Within.run_congr (hp : p.Within key) (h : w.store key = w'.store key) :
    (p.run w).2 = (p.run w').2 ∧ (p.run w).1.store key = (p.run w').1.store key := by
  induction p generalizing w w' with
  | done a => exact ⟨rfl, h⟩
  | call store c next ih =>
    obtain rfl : store = key := hp.1
    have hreply := World.reply_answer_congr h c
    have hstore : (w.answer store c).1.store store = (w'.answer store c).1.store store := by
      rw [World.store_answer_self, World.store_answer_self, h]
    rw [run_call, run_call, hreply]
    exact ih _ (hp.2 _) hstore

theorem Within.store_run (hp : p.Within key) (hne : key' ≠ key) (w : World) :
    (p.run w).1.store key' = w.store key' := by
  induction p generalizing w with
  | done a => rfl
  | call store c next ih =>
    obtain rfl : store = key := hp.1
    rw [run_call, ih _ (hp.2 _), World.store_answer_of_ne w c hne]

end Program

namespace Load.Loader

variable {Object : Type} (l : Loader Object)

theorem permits_within : l.Permits fun store _ => store = l.binding.store :=
  ⟨fun _ _ => rfl, fun _ _ _ => rfl⟩

end Load.Loader

end StoredObjects
