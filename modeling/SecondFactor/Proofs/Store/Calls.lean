import Mathlib.Logic.Function.Basic
import SecondFactor.Update

/-!
# Calls to the Store

On a host it is calls to the store that fail, each one for itself, and not keys. This module holds
computations as trees of calls (`Calls`). In a run each call meets faults of its own (`Calls.run`);
with faults by key all calls meet the same ones (`Calls.byKey`). A computation that on no course
reads a key twice or writes a key twice (`Calls.Once`) does not notice the difference. The main
statement is `exists_run_const_eq`: whichever calls fail, there are faults by key under which such a
computation does the same.
-/

namespace SecondFactor

/-- The answer to a write, and what is stored after it. -/
def HostStore.trySet (store : HostStore) (key value : Bytes) : Except StoreError Unit × Store :=
  match store.set key value with
  | .ok after => (.ok (), after.contents)
  | .error e => (.error e, store.contents)

/-- A computation on the host's store, call by call. How it goes on after a call depends on the
answer. -/
inductive Calls (α : Type) where
  /-- The computation is over. -/
  | done (result : α)
  /-- An event is recorded. -/
  | note (e : Event) (next : Calls α)
  /-- The value under a key is asked for. -/
  | read (key : Bytes) (next : Except StoreError (Option Bytes) → Calls α)
  /-- A value is to be written under a key. -/
  | write (key value : Bytes) (next : Except StoreError Unit → Calls α)

namespace Calls

variable {α β : Type}

/-- One computation after the other. -/
protected def bind : Calls α → (α → Calls β) → Calls β
  | .done a, f => f a
  | .note e next, f => .note e (next.bind f)
  | .read key next, f => .read key fun answer => (next answer).bind f
  | .write key value next, f => .write key value fun answer => (next answer).bind f

instance : Monad Calls where
  pure := .done
  bind := .bind

/-- A result with events, as a computation that makes no call. -/
def ofLogged (x : Logged α) : Calls α :=
  x.events.foldr .note (.done x.value)

instance : MonadLift Logged Calls := ⟨ofLogged⟩

/-! ## Running call by call -/

/-- The computation on what is stored, where call number `n` meets the faults `faults n`. -/
def run : Calls α → (faults : Nat → Faults) → StateT Store Logged α
  | .done a, _ => pure a
  | .note e next, faults => do
    record e
    next.run faults
  | .read key next, faults => fun contents =>
    (next ((⟨contents, faults 0⟩ : HostStore).get key)).run (fun n => faults (n + 1)) contents
  | .write key value next, faults => fun contents =>
    let (answer, after) := (⟨contents, faults 0⟩ : HostStore).trySet key value
    (next answer).run (fun n => faults (n + 1)) after

/-- The computation on a host's store, where all calls meet the same faults. -/
def byKey (calls : Calls α) : StateT HostStore Logged α := fun store =>
  (fun (a, contents) => (a, { store with contents })) <$>
    calls.run (fun _ => store.faults) store.contents

theorem byKey_note (e : Event) (next : Calls α) :
    (note e next).byKey = record e >>= fun _ => next.byKey := by
  funext store
  show _ <$> (Logged.record e >>= fun _ => _) = Logged.record e >>= fun _ => _ <$> _
  rw [map_bind]
  rfl

theorem byKey_read (key : Bytes) (next : Except StoreError (Option Bytes) → Calls α)
    (store : HostStore) :
    (read key next).byKey store = (next (store.get key)).byKey store := rfl

theorem byKey_write (key value : Bytes) (next : Except StoreError Unit → Calls α)
    (store : HostStore) :
    (write key value next).byKey store =
      match store.set key value with
      | .ok store => (next (.ok ())).byKey store
      | .error e => (next (.error e)).byKey store := by
  unfold byKey
  simp only [run, HostStore.trySet, HostStore.set]
  cases store.faults.write key <;> rfl

/-- The second of two computations runs on the store that the first one leaves. -/
theorem byKey_bind (x : Calls α) (f : α → Calls β) :
    (x >>= f).byKey = x.byKey >>= fun a => (f a).byKey := by
  induction x with
  | done a => exact (pure_bind a fun a => (f a).byKey).symm
  | note e next ih =>
    show (note e (next >>= f)).byKey = _
    rw [byKey_note, byKey_note, ih, bind_assoc]
  | read key next ih =>
    funext store
    show (read key fun answer => next answer >>= f).byKey store = _
    rw [byKey_read, ih]
    rfl
  | write key value next ih =>
    funext store
    show (write key value fun answer => next answer >>= f).byKey store =
      (write key value next).byKey store >>= fun (a, store) => (f a).byKey store
    rw [byKey_write, byKey_write]
    -- A refused write leaves the store to the rest as it was.
    cases store.set key value with
    | ok after => exact congrFun (ih (.ok ())) after
    | error e => exact congrFun (ih (.error e)) store

theorem byKey_map (f : α → β) (x : Calls α) : (f <$> x).byKey = f <$> x.byKey :=
  byKey_bind x (pure ∘ f)

/-- A result with events comes out as it is. -/
theorem byKey_lift (x : Logged α) : (liftM x : Calls α).byKey = liftM x := by
  obtain ⟨a, events⟩ := x
  show (ofLogged ⟨a, events⟩).byKey = _
  induction events with
  | nil => rfl
  | cons e rest ih =>
    show (note e (ofLogged ⟨a, rest⟩)).byKey = _
    rw [byKey_note, ih]
    rfl

/-- What a computation that writes nothing comes to is handed on with the store as it was. -/
theorem byKey_map_of_eq {x : Calls α} {f : HostStore → Logged α}
    (hx : ∀ store, x.byKey.run store = (fun a => (a, store)) <$> f store) (g : α → β)
    (store : HostStore) :
    (g <$> x).byKey.run store = do
      let a ← f store
      return (g a, store) := by
  rw [byKey_map, StateT.run_map, hx store, Functor.map_map, bind_pure_comp]

/-! ## No key twice -/

/-- `calls.Once post reads writes`: after the keys in `reads` have been read and those in `writes`
have been written, on no course, however the calls are answered, is one of these read or written
again or another one twice. At the end `post` holds of the keys that have been read, of those that
have been written and of the result. -/
def Once (post : List Bytes → List Bytes → α → Prop) :
    (reads writes : List Bytes) → Calls α → Prop
  | reads, writes, .done a => post reads writes a
  | reads, writes, .note _ next => Once post reads writes next
  | reads, writes, .read key next =>
    key ∉ reads ∧ ∀ answer, Once post (key :: reads) writes (next answer)
  | reads, writes, .write key _ next =>
    key ∉ writes ∧ ∀ answer, Once post reads (key :: writes) (next answer)

/-- Any end is right. -/
abbrev anyEnd : List Bytes → List Bytes → α → Prop :=
  fun _ _ _ => True

namespace Once

variable {post post' : List Bytes → List Bytes → α → Prop} {reads writes : List Bytes}
  {calls : Calls α}

/-- What holds at the end may be weakened. -/
theorem mono (h : Once post reads writes calls)
    (hpost : ∀ reads writes a, post reads writes a → post' reads writes a) :
    Once post' reads writes calls := by
  induction calls generalizing reads writes with
  | done a => exact hpost _ _ _ h
  | note e next ih => exact ih h
  | read key next ih => exact ⟨h.1, fun answer => ih answer (h.2 answer)⟩
  | write key value next ih => exact ⟨h.1, fun answer => ih answer (h.2 answer)⟩

/-- The second of two computations starts with the keys that the first one has used up. -/
theorem bind {next : α → Calls β} {last : List Bytes → List Bytes → β → Prop}
    (h : Once (fun reads writes a => Once last reads writes (next a)) reads writes calls) :
    Once last reads writes (calls >>= next) := by
  induction calls generalizing reads writes with
  | done a => exact h
  | note e rest ih => exact ih h
  | read key rest ih => exact ⟨h.1, fun answer => ih answer (h.2 answer)⟩
  | write key value rest ih => exact ⟨h.1, fun answer => ih answer (h.2 answer)⟩

/-- A result with events uses no key up. -/
theorem lift {x : Logged α} (h : post reads writes x.value) :
    Once post reads writes (liftM x : Calls α) := by
  obtain ⟨a, events⟩ := x
  show Once post reads writes (ofLogged ⟨a, events⟩)
  induction events with
  | nil => exact h
  | cons e rest ih => exact ih h

end Once

/-! ## Faults by call and by key -/

/-- Whichever faults the calls meet, there are faults by key under which a computation that uses no
key twice does the same. On the keys that are used up already they are any given ones. -/
theorem exists_run_const_eq {post : List Bytes → List Bytes → α → Prop}
    {reads writes : List Bytes} {calls : Calls α} (h : calls.Once post reads writes)
    (given : Faults) (faults : Nat → Faults) (contents : Store) :
    ∃ common : Faults, (∀ key ∈ reads, common.read key = given.read key) ∧
      (∀ key ∈ writes, common.write key = given.write key) ∧
      calls.run (fun _ => common) contents = calls.run faults contents := by
  induction calls generalizing reads writes given faults contents with
  | done a => exact ⟨given, fun _ _ => rfl, fun _ _ => rfl, rfl⟩
  | note e next ih =>
    obtain ⟨common, hreads, hwrites, hrun⟩ := ih h given faults contents
    refine ⟨common, hreads, hwrites, ?_⟩
    show (Logged.record e >>= fun _ => next.run (fun _ => common) contents) =
      Logged.record e >>= fun _ => next.run faults contents
    rw [hrun]
  | read key next ih =>
    obtain ⟨hfresh, hnext⟩ := h
    -- The key is not read again, so for the rest it may fail for good as this call does.
    let later : Faults :=
      { given with read := Function.update given.read key ((faults 0).read key) }
    obtain ⟨common, hreads, hwrites, hrun⟩ :=
      ih ((⟨contents, faults 0⟩ : HostStore).get key) (hnext _) later (fun n => faults (n + 1))
        contents
    have hkey : common.read key = (faults 0).read key := by
      rw [hreads key List.mem_cons_self]
      exact Function.update_self ..
    refine ⟨common, fun used hused => ?_, hwrites, ?_⟩
    · rw [hreads used (List.mem_cons_of_mem key hused)]
      exact Function.update_of_ne (ne_of_mem_of_not_mem hused hfresh) ..
    · show (next ((⟨contents, common⟩ : HostStore).get key)).run (fun _ => common) contents =
        (next ((⟨contents, faults 0⟩ : HostStore).get key)).run (fun n => faults (n + 1)) contents
      rw [← hrun, HostStore.get, HostStore.get, hkey]
  | write key value next ih =>
    obtain ⟨hfresh, hnext⟩ := h
    let later : Faults :=
      { given with write := Function.update given.write key ((faults 0).write key) }
    let answered := (⟨contents, faults 0⟩ : HostStore).trySet key value
    obtain ⟨common, hreads, hwrites, hrun⟩ :=
      ih answered.1 (hnext _) later (fun n => faults (n + 1)) answered.2
    have hkey : common.write key = (faults 0).write key := by
      rw [hwrites key List.mem_cons_self]
      exact Function.update_self ..
    -- The write has the same answer and leaves the same contents.
    have hanswered : (⟨contents, common⟩ : HostStore).trySet key value = answered := by
      simp only [answered, HostStore.trySet, HostStore.set, hkey]
      cases (faults 0).write key <;> rfl
    refine ⟨common, hreads, fun used hused => ?_, ?_⟩
    · rw [hwrites used (List.mem_cons_of_mem key hused)]
      exact Function.update_of_ne (ne_of_mem_of_not_mem hused hfresh) ..
    · show (next ((⟨contents, common⟩ : HostStore).trySet key value).1).run (fun _ => common)
          ((⟨contents, common⟩ : HostStore).trySet key value).2 =
        (next answered.1).run (fun n => faults (n + 1)) answered.2
      rw [hanswered, hrun]

end Calls

end SecondFactor
