import StoredObjects.Proofs.Store.Interleaving

/-! # Programs and the replies to their calls

What a program asks depends on what it is told, and on nothing else of the stores. A conversation is
fixed by the replies alone: they can come from stores, and as well from an adversary who lets any
call fail. Every run on stores is a conversation, and the stores note its calls.
-/

namespace StoredObjects

/-- The replies to the calls of a conversation, by the places of the calls from zero on. -/
abbrev Replies := Nat → (store : String) → (c : Call) → Except Failure c.Reply

def Replies.after (replies : Replies) (n : Nat) : Replies := fun i => replies (n + i)

def Replies.cons (first : (store : String) → (c : Call) → Except Failure c.Reply)
    (replies : Replies) : Replies
  | 0 => first
  | n + 1 => replies n

@[simp] theorem Replies.after_cons
    (first : (store : String) → (c : Call) → Except Failure c.Reply) (replies : Replies) :
    (cons first replies).after 1 = replies := by
  funext n
  rw [after, Nat.add_comm]
  rfl

@[simp] theorem Replies.after_zero (replies : Replies) : replies.after 0 = replies := by
  funext n
  simp [after]

theorem Replies.after_after (replies : Replies) (m n : Nat) :
    (replies.after m).after n = replies.after (m + n) := by
  funext i
  simp [after, Nat.add_assoc]

/-- A store notes every call that it does not break down into others, also one that fails. -/
theorem Store.journal_answer_of_plain (s : Store) {c : Call} (hc : ∀ share, c ≠ .findShare share) :
    (s.answer c).1.journal = s.journal ++ [c] := by
  have hperform : (s.perform c).1.journal = s.journal ++ [c] := by
    unfold perform
    split
    · rfl
    · rw [(effect_frame _ c).1]
      rfl
  cases c with
  | findShare share => exact absurd rfl (hc share)
  | _ => exact hperform

theorem World.journal_answer_of_plain (w : World) {store : String} {c : Call}
    (hc : ∀ share, c ≠ .findShare share) (key : String) :
    (w.answer store c).1.journal key = w.journal key ++ if store = key then [c] else [] := by
  by_cases hkey : store = key
  · subst hkey
    simp [journal, World.answer, Store.journal_answer_of_plain _ hc]
  · simp [journal, World.answer, store_setStore_of_ne w _ (Ne.symm hkey), hkey]

namespace Program

variable {α β : Type}

/-- The calls that a program makes on the given replies, and what it comes to. -/
def converse (replies : Replies) : Program α → List (String × Call) × α
  | done a => ([], a)
  | call store c next =>
    let (calls, a) := (next (replies 0 store c)).converse (replies.after 1)
    ((store, c) :: calls, a)
  termination_by structural p => p

theorem converse_bind (replies : Replies) (p : Program α) (f : α → Program β) :
    (p >>= f).converse replies =
      let (calls, a) := p.converse replies
      let (later, b) := (f a).converse (replies.after calls.length)
      (calls ++ later, b) := by
  induction p generalizing replies with
  | done a => simp [converse]
  | call store c next ih => simp [converse, ih, Replies.after_after, Nat.add_comm 1]

/-- A run on stores is a conversation, whatever befalls the calls there, and every store has noted
its part of it. -/
theorem exists_converse_eq_run (w : World) {p : Program α}
    (hp : p.Calls fun _ c => ∀ share, c ≠ .findShare share) :
    ∃ replies, (p.run w).2 = (p.converse replies).2 ∧ ∀ key,
      (p.run w).1.journal key =
        w.journal key ++ ((p.converse replies).1.filter (·.1 = key)).map Prod.snd := by
  induction p generalizing w with
  | done a => exact ⟨fun _ _ c => .error .workerDied, rfl, fun key => by simp [converse, run]⟩
  | call store c next ih =>
    obtain ⟨replies, hresult, hjournal⟩ := ih (w.answer store c).2 (w.answer store c).1 (hp.2 _)
    have hconverse : (call store c next).converse (.cons (fun s c => (w.answer s c).2) replies) =
        ((store, c) :: ((next (w.answer store c).2).converse replies).1,
          ((next (w.answer store c).2).converse replies).2) := by
      simp [converse, Replies.cons]
    refine ⟨.cons (fun s c => (w.answer s c).2) replies, ?_, fun key => ?_⟩
    · rw [run_call, hconverse]
      exact hresult
    · rw [run_call, hconverse, hjournal, World.journal_answer_of_plain w hp.1]
      by_cases hkey : store = key <;> simp [hkey]

end Program

end StoredObjects
