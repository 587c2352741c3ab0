import Mathlib.Logic.Relation
import StoredObjects.Proofs.Store.Contents

/-! # Two programs at the same time

The calls of two programs that use the same stores come in some order, and a call of one program can
come between any two calls of the other. For either program the other one is an environment that
changes the stores between its own calls. Only what the environment can do matters then, and a run
in an environment can be taken apart like a run of one program alone.
-/

namespace StoredObjects

namespace Program

variable {α β : Type}

/-- All calls that a program can make have a property, whatever the replies to them. -/
def Calls (P : String → Call → Prop) : Program α → Prop
  | done _ => True
  | call store c next => P store c ∧ ∀ r, (next r).Calls P
  termination_by structural p => p

inductive Interleaved : World → Program α → Program β → World → α → β → Prop where
  | done (w : World) (a : α) (b : β) : Interleaved w (done a) (done b) w a b
  | left {w w' w'' : World} {p p' : Program α} {q : Program β} {a : α} {b : β}
      (hstep : p.step? w = some (p', w')) (hrest : Interleaved w' p' q w'' a b) :
      Interleaved w p q w'' a b
  | right {w w' w'' : World} {p : Program α} {q q' : Program β} {a : α} {b : β}
      (hstep : q.step? w = some (q', w')) (hrest : Interleaved w' p q' w'' a b) :
      Interleaved w p q w'' a b

/-- Both programs make all their calls, in the given order: `true` stands for the first one. -/
def interleave : List Bool → World → Program α → Program β → Option (World × α × β)
  | [], w, done a, done b => some (w, a, b)
  | true :: turns, w, p, q =>
    match p.step? w with
    | some (p, w) => interleave turns w p q
    | none => none
  | false :: turns, w, p, q =>
    match q.step? w with
    | some (q, w) => interleave turns w p q
    | none => none
  | [], _, _, _ => none

/-- A program makes all its calls, and between them the environment takes its steps. -/
inductive Beside (R : World → World → Prop) : World → Program α → World → α → Prop where
  | done (w : World) (a : α) : Beside R w (done a) w a
  | environment {w w' w'' : World} {p : Program α} {a : α} (hstep : R w w')
      (hrest : Beside R w' p w'' a) : Beside R w p w'' a
  | call {w w'' : World} {store : String} {c : Call}
      {next : Except Failure c.Reply → Program α} {a : α}
      (hrest : Beside R (w.answer store c).1 (next (w.answer store c).2) w'' a) :
      Beside R w (call store c next) w'' a

variable {P : String → Call → Prop} {R : World → World → Prop}

theorem interleaved_of_interleave {turns : List Bool} {w w' : World} {p : Program α}
    {q : Program β} {a : α} {b : β} (h : interleave turns w p q = some (w', a, b)) :
    Interleaved w p q w' a b := by
  induction turns generalizing p q w with
  | nil =>
    cases p with
    | call => cases h
    | done a =>
      cases q with
      | call => cases h
      | done b =>
        cases h
        exact .done _ a b
  | cons turn turns ih =>
    cases turn with
    | true =>
      unfold interleave at h
      split at h
      · rename_i hstep
        exact .left hstep (ih h)
      · cases h
    | false =>
      unfold interleave at h
      split at h
      · rename_i hstep
        exact .right hstep (ih h)
      · cases h

theorem Calls.bind {p : Program α} {f : α → Program β} (hp : p.Calls P)
    (hf : ∀ a, (f a).Calls P) : (p >>= f).Calls P := by
  induction p with
  | done a => exact hf a
  | call store c next ih => exact ⟨hp.1, fun r => ih r (hp.2 r)⟩

theorem Calls.perform {store : String} {c : Call} (hc : P store c) :
    (Program.perform store c).Calls P := ⟨hc, fun _ => trivial⟩

def Answered (P : String → Call → Prop) (w w' : World) : Prop :=
  ∃ store c, P store c ∧ w' = (w.answer store c).1

/-- The calls of the first program are an environment of the second one. -/
theorem Interleaved.beside {w w' : World} {p : Program α} {q : Program β} {a : α} {b : β}
    (h : Interleaved w p q w' a b) (hp : p.Calls P) : Beside (Answered P) w q w' b := by
  induction h with
  | done w a b => exact .done w b
  | @left w w' w'' p p' q a b hstep hrest ih =>
    cases p with
    | done a => cases hstep
    | call store c next =>
      obtain ⟨rfl, rfl⟩ := Prod.mk.inj (Option.some.inj hstep)
      exact .environment ⟨store, c, hp.1, rfl⟩ (ih (hp.2 _))
  | @right w w' w'' p q q' a b hstep hrest ih =>
    cases q with
    | done b => cases hstep
    | call store c next =>
      obtain ⟨rfl, rfl⟩ := Prod.mk.inj (Option.some.inj hstep)
      exact .call (ih hp)

theorem Beside.of_bind {w w'' : World} {p : Program α} {f : α → Program β} {b : β}
    (h : Beside R w (p >>= f) w'' b) :
    ∃ w' a, Beside R w p w' a ∧ Beside R w' (f a) w'' b := by
  generalize hq : p >>= f = q at h
  induction h generalizing p with
  | done w b =>
    cases p with
    | done a =>
      refine ⟨w, a, .done w a, ?_⟩
      rw [bind_done] at hq
      rw [hq]
      exact .done w b
    | call store c next => cases hq
  | environment hstep _ ih =>
    obtain ⟨w', a, hp, hf⟩ := ih hq
    exact ⟨w', a, .environment hstep hp, hf⟩
  | @call w w'' store c next b hrest ih =>
    cases p with
    | done a =>
      rw [bind_done] at hq
      exact ⟨w, a, .done w a, hq ▸ .call hrest⟩
    | call store' c' next' =>
      rw [bind_call] at hq
      cases hq
      obtain ⟨w', a, hp, hf⟩ := ih rfl
      exact ⟨w', a, .call hp, hf⟩

theorem Beside.of_done {w w' : World} {a b : α} (h : Beside R w (.done a) w' b) :
    b = a ∧ Relation.ReflTransGen R w w' := by
  generalize hq : Program.done a = q at h
  induction h with
  | done w b =>
    cases hq
    exact ⟨rfl, .refl⟩
  | environment hstep _ ih =>
    obtain ⟨hb, hrest⟩ := ih hq
    exact ⟨hb, .head hstep hrest⟩
  | call hrest ih => cases hq

theorem Beside.of_perform {w w'' : World} {store : String} {c : Call} {r : Except Failure c.Reply}
    (h : Beside R w (.perform store c) w'' r) :
    ∃ w', Relation.ReflTransGen R w w' ∧ r = (w'.answer store c).2 ∧
      Relation.ReflTransGen R (w'.answer store c).1 w'' := by
  generalize hq : Program.perform store c = q at h
  induction h with
  | done w r => cases hq
  | environment hstep _ ih =>
    obtain ⟨w', hbefore, hr, hafter⟩ := ih hq
    exact ⟨w', .head hstep hbefore, hr, hafter⟩
  | call hrest ih =>
    cases hq
    obtain ⟨hr, hafter⟩ := hrest.of_done
    exact ⟨_, .refl, hr, hafter⟩

end Program

end StoredObjects
