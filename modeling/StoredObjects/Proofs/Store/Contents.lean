import Mathlib.Logic.Function.Basic
import StoredObjects.Proofs.Collection.Lookup
import StoredObjects.Store.Program

/-! # What stores hold

Stores in memory answer at once and never fail on their own. Of such stores only the collections
matter: the answer to a call depends on nothing else, and a call changes the collection of its own
store only. A program can also be run with one call that fails, which then has no effect.
-/

namespace StoredObjects

namespace Store

/-- No failure is due, nothing comes after the stored documents, and shares are selected in one
step. -/
structure InMemory (s : Store) : Prop where
  faults : s.faults = []
  tails : s.tails = []
  selectsShares : s.selectsShares = true

variable {s : Store}

theorem perform_of_inMemory (hs : s.InMemory) (c : Call) : s.perform c = (s.note c).effect c := by
  simp [perform, fault?, hs.faults]

theorem answer_of_inMemory (hs : s.InMemory) (c : Call) : s.answer c = (s.note c).effect c := by
  cases c <;> simp [answer, hs.selectsShares, perform_of_inMemory hs]

theorem InMemory.note (hs : s.InMemory) (c : Call) : (s.note c).InMemory :=
  ⟨hs.faults, hs.tails, hs.selectsShares⟩

theorem InMemory.effect (hs : s.InMemory) (c : Call) : (s.effect c).1.InMemory := by
  have hsettle : ∀ r, (s.settle r).1.InMemory := by
    intro r
    cases r with
    | ok c => exact ⟨hs.faults, hs.tails, hs.selectsShares⟩
    | error e => exact hs
  have hread : ∀ ds, (s.read ds).1.InMemory :=
    fun ds => ⟨hs.faults, by simp [Store.read, hs.tails], hs.selectsShares⟩
  cases c with
  | findAll => exact hread _
  | findShare share => exact hs
  | findById identity => exact hs
  | findByQuery q => exact hread _
  | insert d =>
    simp only [Store.effect, Store.insert]
    split <;> exact ⟨hs.faults, hs.tails, hs.selectsShares⟩
  | insertAll ds => exact ⟨hs.faults, hs.tails, hs.selectsShares⟩
  | update d => exact hsettle _
  | replace old new => exact hsettle _
  | delete template => exact ⟨hs.faults, hs.tails, hs.selectsShares⟩

theorem InMemory.answer (hs : s.InMemory) (c : Call) : (s.answer c).1.InMemory := by
  rw [answer_of_inMemory hs]
  exact (hs.note c).effect c

theorem effect_frame (s : Store) (c : Call) :
    (s.effect c).1.journal = s.journal ∧ (s.effect c).1.supply = s.supply := by
  cases c with
  | insert d =>
    simp only [Store.effect, Store.insert]
    split <;> exact ⟨rfl, rfl⟩
  | update d =>
    simp only [Store.effect, Store.settle]
    split <;> exact ⟨rfl, rfl⟩
  | replace old new =>
    simp only [Store.effect, Store.settle]
    split <;> exact ⟨rfl, rfl⟩
  | _ => exact ⟨rfl, rfl⟩

theorem journal_answer (hs : s.InMemory) (c : Call) :
    (s.answer c).1.journal = s.journal ++ [c] := by
  rw [answer_of_inMemory hs, (effect_frame _ c).1]
  rfl

theorem supply_answer (hs : s.InMemory) (c : Call) : (s.answer c).1.supply = s.supply := by
  rw [answer_of_inMemory hs, (effect_frame _ c).2]
  rfl

def taken : Call → Nat
  | .insert _ => 1
  | .insertAll ds => ds.length
  | _ => 0

theorem issued_answer (hs : s.InMemory) (c : Call) :
    (s.answer c).1.issued = s.issued + taken c := by
  rw [answer_of_inMemory hs]
  cases c with
  | insert d =>
    simp only [Store.effect, Store.insert]
    split <;> rfl
  | update d =>
    simp only [Store.effect, Store.settle]
    split <;> rfl
  | replace old new =>
    simp only [Store.effect, Store.settle]
    split <;> rfl
  | _ => rfl

/-- A call leaves the collection `after` and has the reply `reply`. -/
structure Answers (s : Store) (c : Call) (after : Collection) (reply : Except Failure c.Reply) :
    Prop where
  collection : (s.answer c).1.collection = after
  reply : (s.answer c).2 = reply

theorem getElem_identified (supply : Nat → String) (ds : List Document) {i : Nat}
    (h : i < (identified supply ds).length) :
    ∃ hi : i < ds.length, (identified supply ds)[i] = ds[i].orIdentity (supply i) :=
  ⟨by simpa [identified] using h, by simp [identified]⟩

theorem keyed_identified (supply : Nat → String) (ds : List Document) :
    ∀ d ∈ identified supply ds, ∃ k, d.key? = some k := by
  intro d hd
  obtain ⟨i, hi, rfl⟩ := List.getElem_of_mem hd
  obtain ⟨_, heq⟩ := getElem_identified supply ds hi
  rw [heq]
  exact Document.exists_key?_orIdentity _ _

/-- A key of documents with identities was theirs before, or comes from the supply. -/
theorem key?_of_mem_identified {supply : Nat → String} {ds : List Document} {d : Document}
    {k : String} (hd : d ∈ identified supply ds) (hk : d.key? = some k) :
    (∃ e ∈ ds, e.key? = some k) ∨ ∃ n, Document.keyOf (.text (supply n)) = k := by
  obtain ⟨i, hi, rfl⟩ := List.getElem_of_mem hd
  obtain ⟨hlt, heq⟩ := getElem_identified supply ds hi
  rw [heq] at hk
  cases hown : ds[i].key? with
  | some j =>
    rw [Document.orIdentity_of_key? hown] at hk
    exact Or.inl ⟨ds[i], List.getElem_mem hlt, hk⟩
  | none =>
    rw [Document.key?_orIdentity_of_no_key? hown] at hk
    exact Or.inr ⟨i, Option.some.inj hk⟩

theorem identified_append (supply : Nat → String) (ds es : List Document) :
    identified supply (ds ++ es) =
      identified supply ds ++ identified (fun i => supply (i + ds.length)) es := by
  simp [identified, List.mapIdx_append]

theorem identified_cons (supply : Nat → String) (d : Document) (ds : List Document) :
    identified supply (d :: ds) =
      d.orIdentity (supply 0) :: identified (fun i => supply (i + 1)) ds := by
  simp [identified]

theorem mem_identified_of_key? {ds : List Document} {d : Document} {k : String} (hd : d ∈ ds)
    (hk : d.key? = some k) (supply : Nat → String) : d ∈ identified supply ds := by
  obtain ⟨i, hi, rfl⟩ := List.getElem_of_mem hd
  have hlen : i < (identified supply ds).length := by simpa [identified] using hi
  obtain ⟨_, heq⟩ := getElem_identified supply ds hlen
  rw [Document.orIdentity_of_key? hk] at heq
  exact heq ▸ List.getElem_mem hlen

theorem identified_of_keyed {ds : List Document} (hds : ∀ d ∈ ds, ∃ k, d.key? = some k)
    (supply : Nat → String) : identified supply ds = ds := by
  apply List.ext_getElem
  · simp [identified]
  · intro i h hi
    obtain ⟨k, hk⟩ := hds ds[i] (List.getElem_mem hi)
    obtain ⟨_, heq⟩ := getElem_identified supply ds h
    rw [heq, Document.orIdentity_of_key? hk]

theorem answers_findAll (hs : s.InMemory) :
    s.Answers .findAll s.collection (.ok (s.collection.documents.map .value)) := by
  constructor <;> simp [answer_of_inMemory hs, effect, read, note, hs.tails]

theorem answers_findShare (hs : s.InMemory) (share : Routing.Share) :
    s.Answers (.findShare share) s.collection
      ((s.collection.ownedBy share).map (·.map .value)) := by
  constructor <;> simp [answer_of_inMemory hs, effect, note]

theorem answers_findById (hs : s.InMemory) (identity : Value) :
    s.Answers (.findById identity) s.collection (.ok (s.collection.find? identity)) := by
  constructor <;> simp [answer_of_inMemory hs, effect, note]

theorem answers_findByQuery (hs : s.InMemory) (q : Query) :
    s.Answers (.findByQuery q) s.collection (.ok ((s.collection.select q).map .value)) := by
  constructor <;> simp [answer_of_inMemory hs, effect, read, note, hs.tails]

theorem answers_insert (hs : s.InMemory) {d : Document} {k : String} (hk : d.key? = some k)
    (hfree : s.collection.stored.get? k = none) :
    s.Answers (.insert d) (s.collection.put k d) (.ok d) := by
  constructor <;>
    simp [answer_of_inMemory hs, effect, Store.insert, note, Document.orIdentity_of_key? hk,
      Collection.insert_of_free hk hfree]

theorem answers_insertAll (hs : s.InMemory) (ds : List Document) :
    s.Answers (.insertAll ds)
      (s.collection.insertAll (identified (fun i => s.supply (s.issued + i)) ds)).1
      (s.collection.insertAll (identified (fun i => s.supply (s.issued + i)) ds)).2 := by
  constructor <;> simp [answer_of_inMemory hs, effect, insertAll, note]

theorem answers_update (hs : s.InMemory) {d : Document} {k : String} (hk : d.key? = some k) :
    s.Answers (.update d) (s.collection.put k d) (.ok ()) := by
  constructor <;>
    simp [answer_of_inMemory hs, effect, note, settle, setCollection,
      Collection.update_of_key? hk]

theorem answers_update_of_no_key? (hs : s.InMemory) {d : Document} (hd : d.key? = none) :
    s.Answers (.update d) s.collection ((s.collection.update d).map fun _ => ()) := by
  constructor <;>
    simp [answer_of_inMemory hs, effect, note, settle, Collection.update_of_no_key? hd, Except.map]

theorem answers_replace (hs : s.InMemory) (old new : Document) :
    s.Answers (.replace old new)
      (match s.collection.replace old new with
        | .ok c => c
        | .error _ => s.collection)
      ((s.collection.replace old new).map fun _ => ()) := by
  cases h : s.collection.replace old new with
  | ok c => constructor <;> simp [answer_of_inMemory hs, effect, note, settle, h, setCollection,
      Except.map]
  | error e => constructor <;> simp [answer_of_inMemory hs, effect, note, settle, h, Except.map]

theorem answers_deleteLike (hs : s.InMemory) (template : Document) :
    s.Answers (.delete template) (s.collection.delete template) (.ok ()) := by
  constructor <;> simp [answer_of_inMemory hs, effect, note, setCollection]

theorem answers_delete (hs : s.InMemory) {v : Value} (hv : v.isNull = false) :
    s.Answers (.delete (.ofIdentity v)) (s.collection.drop (Document.keyOf v)) (.ok ()) :=
  Collection.delete_ofIdentity hv ▸ answers_deleteLike hs (.ofIdentity v)

end Store

abbrev Contents := String → Collection

namespace Contents

/-- The document at a place: under a key, in a store. -/
def at? (σ : Contents) (place : String × String) : Option Document :=
  (σ place.1).stored.get? place.2

@[simp] theorem at?_update_self (σ : Contents) (store k : String) (c : Collection) :
    at? (Function.update σ store c) (store, k) = c.stored.get? k := by
  simp [at?]

theorem at?_update_of_ne (σ : Contents) {store : String} {place : String × String} (c : Collection)
    (h : place.1 ≠ store) : at? (Function.update σ store c) place = σ.at? place := by
  simp [at?, Function.update_of_ne h]

end Contents

namespace World

def InMemory (w : World) : Prop := ∀ key, (w.store key).InMemory

def contents (w : World) : Contents := fun key => (w.store key).collection

variable {w : World}

theorem contents_setStore (w : World) (key : String) (s : Store) :
    (w.setStore key s).contents = Function.update w.contents key s.collection := by
  funext key'
  by_cases h : key' = key
  · subst h
    simp [contents]
  · simp [contents, store_setStore_of_ne w s h, Function.update_of_ne h]

theorem InMemory.setStore (hw : w.InMemory) (key : String) {s : Store} (hs : s.InMemory) :
    (w.setStore key s).InMemory := by
  intro key'
  by_cases h : key' = key
  · subst h
    simpa using hs
  · simpa [store_setStore_of_ne w s h] using hw key'

theorem InMemory.answer (hw : w.InMemory) (key : String) (c : Call) :
    (w.answer key c).1.InMemory :=
  hw.setStore key ((hw key).answer c)

theorem contents_answer {key : String} {c : Call} {after : Collection}
    {reply : Except Failure c.Reply} (h : (w.store key).Answers c after reply) :
    (w.answer key c).1.contents = Function.update w.contents key after := by
  simp [World.answer, contents_setStore, h.collection]

theorem reply_answer {key : String} {c : Call} {after : Collection}
    {reply : Except Failure c.Reply} (h : (w.store key).Answers c after reply) :
    (w.answer key c).2 = reply := h.reply

theorem answer_findById (hw : w.InMemory) (store : String) (identity : Value) :
    (w.answer store (.findById identity)).1.contents = w.contents ∧
      (w.answer store (.findById identity)).2 = .ok ((w.contents store).find? identity) := by
  have h := Store.answers_findById (hw store) identity
  exact ⟨(contents_answer h).trans (Function.update_eq_self store w.contents), reply_answer h⟩

theorem answer_findByQuery (hw : w.InMemory) (store : String) (q : Query) :
    (w.answer store (.findByQuery q)).1.contents = w.contents ∧
      (w.answer store (.findByQuery q)).2 = .ok (((w.contents store).select q).map .value) := by
  have h := Store.answers_findByQuery (hw store) q
  exact ⟨(contents_answer h).trans (Function.update_eq_self store w.contents), reply_answer h⟩

def supplies (w : World) : String → Nat → String := fun key => (w.store key).supply

def issued (w : World) : String → Nat := fun key => (w.store key).issued

def journal (w : World) (key : String) : List Call := (w.store key).journal

theorem supplies_answer (hw : w.InMemory) (key : String) (c : Call) :
    (w.answer key c).1.supplies = w.supplies := by
  funext key'
  by_cases h : key' = key
  · subst h
    simp [supplies, World.answer, Store.supply_answer (hw key')]
  · simp [supplies, World.answer, store_setStore_of_ne w _ h]

theorem issued_answer (hw : w.InMemory) (key : String) (c : Call) :
    (w.answer key c).1.issued = Function.update w.issued key (w.issued key + Store.taken c) := by
  funext key'
  by_cases h : key' = key
  · subst h
    simp [issued, World.answer, Store.issued_answer (hw key')]
  · simp [issued, World.answer, store_setStore_of_ne w _ h, Function.update_of_ne h]

theorem journal_answer (hw : w.InMemory) (key : String) (c : Call) :
    (w.answer key c).1.journal = Function.update w.journal key (w.journal key ++ [c]) := by
  funext key'
  by_cases h : key' = key
  · subst h
    simp [journal, World.answer, Store.journal_answer (hw key')]
  · simp [journal, World.answer, store_setStore_of_ne w _ h, Function.update_of_ne h]

def noteFailed (w : World) (key : String) (c : Call) : World :=
  w.setStore key ((w.store key).note c)

@[simp] theorem contents_noteFailed (w : World) (key : String) (c : Call) :
    (w.noteFailed key c).contents = w.contents := by
  rw [noteFailed, contents_setStore]
  exact Function.update_eq_self key w.contents

theorem InMemory.noteFailed (hw : w.InMemory) (key : String) (c : Call) :
    (w.noteFailed key c).InMemory := hw.setStore key ((hw key).note c)

end World

namespace Program

variable {α β : Type}

/-- Makes all calls, of which the `n`-th from zero on fails with `e` and has no effect. -/
def runFailing (n : Nat) (e : Failure) (w : World) : Program α → World × α
  | done a => (w, a)
  | call store c next =>
    match n with
    | 0 => (next (.error e)).run (w.noteFailed store c)
    | n + 1 => let (w, r) := w.answer store c; (next r).runFailing n e w
  termination_by structural p => p

@[simp] theorem bind_done (a : α) (f : α → Program β) : (done a >>= f) = f a := rfl

@[simp] theorem bind_call (store : String) (c : Call) (next : Except Failure c.Reply → Program α)
    (f : α → Program β) : (call store c next >>= f) = call store c fun r => next r >>= f := rfl

theorem run_call (w : World) (store : String) (c : Call)
    (next : Except Failure c.Reply → Program α) :
    (call store c next).run w = (next (w.answer store c).2).run (w.answer store c).1 := rfl

theorem inMemory_run {w : World} (hw : w.InMemory) (p : Program α) : (p.run w).1.InMemory := by
  induction p generalizing w with
  | done a => exact hw
  | call store c next ih => exact ih _ (hw.answer store c)

theorem supplies_run {w : World} (hw : w.InMemory) (p : Program α) :
    (p.run w).1.supplies = w.supplies := by
  induction p generalizing w with
  | done a => rfl
  | call store c next ih =>
    exact (ih _ (hw.answer store c)).trans (World.supplies_answer hw store c)

theorem runFailing_map (p : Program α) (f : α → β) (n : Nat) (e : Failure) (w : World) :
    (p.bind fun a => done (f a)).runFailing n e w =
      ((p.runFailing n e w).1, f (p.runFailing n e w).2) := by
  induction p generalizing n w with
  | done a => rfl
  | call store c next ih =>
    cases n with
    | zero => exact run_bind _ _ _
    | succ n => exact ih _ n _

theorem runFailing_call_zero (e : Failure) (w : World) (store : String) (c : Call)
    (next : Except Failure c.Reply → Program α) :
    (call store c next).runFailing 0 e w = (next (.error e)).run (w.noteFailed store c) := rfl

theorem runFailing_call_succ (n : Nat) (e : Failure) (w : World) (store : String) (c : Call)
    (next : Except Failure c.Reply → Program α) :
    (call store c next).runFailing (n + 1) e w =
      (next (w.answer store c).2).runFailing n e (w.answer store c).1 := rfl

end Program

end StoredObjects
