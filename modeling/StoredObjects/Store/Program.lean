import StoredObjects.Store.Basic

/-!
Programs: calls to stores, made one after another, in which each call can depend on the replies to
the earlier ones.

`Program.run` runs a program alone. Two programs that work on the same stores at the same time are
described by the first call of each, `Program.step?`, which is what can come in between.
-/

namespace StoredObjects

inductive Program (α : Type) where
  | done (a : α)
  | call (store : String) (c : Call) (next : Except Failure c.Reply → Program α)

structure World where
  stores : TextMap Store

namespace World

/-- The store of a key; where there is none, a new one. -/
def store (w : World) (key : String) : Store :=
  (w.stores.get? key).getD { collection := .empty key, supply := fun _ => "" }

def setStore (w : World) (key : String) (s : Store) : World := ⟨w.stores.insert key s⟩

def answer (w : World) (key : String) (c : Call) : World × Except Failure c.Reply :=
  let (s, r) := (w.store key).answer c
  (w.setStore key s, r)

@[simp] theorem store_setStore_self (w : World) (key : String) (s : Store) :
    (w.setStore key s).store key = s := by
  simp [store, setStore]

theorem store_setStore_of_ne (w : World) {key key' : String} (s : Store) (h : key' ≠ key) :
    (w.setStore key s).store key' = w.store key' := by
  simp [store, setStore, TextMap.get?_insert_of_ne _ _ h]

end World

namespace Program

variable {α β : Type}

def bind (p : Program α) (f : α → Program β) : Program β :=
  match p with
  | done a => f a
  | call store c next => call store c fun r => (next r).bind f

instance : Monad Program where
  pure := done
  bind := bind

def perform (store : String) (c : Call) : Program (Except Failure c.Reply) := call store c done

def step? (p : Program α) (w : World) : Option (Program α × World) :=
  match p with
  | done _ => none
  | call store c next => let (w, r) := w.answer store c; some (next r, w)

def run (w : World) : Program α → World × α
  | done a => (w, a)
  | call store c next => let (w, r) := w.answer store c; (next r).run w

theorem bind_eq (p : Program α) (f : α → Program β) : p >>= f = p.bind f := rfl

@[simp] theorem run_done (w : World) (a : α) : (done a).run w = (w, a) := rfl

theorem run_bind (w : World) (p : Program α) (f : α → Program β) :
    (p.bind f).run w = (f (p.run w).2).run (p.run w).1 := by
  induction p generalizing w with
  | done a => rfl
  | call store c next ih => exact ih _ _

end Program

end StoredObjects
