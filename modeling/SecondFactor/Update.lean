import SecondFactor.Logged
import SecondFactor.Store.Host

/-!
# Computations on the Store

`Update` is a computation that may write to the host's store and may fail; what it wrote before a
failure stays written. Its run on a store gives the result with the store after it (`value`) and
the events on the way (`events`). The lemmas say what both are for the operations that
computations are built of; nothing else needs to look inside.
-/

namespace SecondFactor

/-- A computation that may write to the store and may fail. -/
abbrev Update := ExceptT Error (StateT HostStore Logged)

namespace Update

variable {α β : Type}

/-- A computation that leaves the store alone, as one that may write to it. -/
def ofAttempt (attempt : Attempt α) : Update α :=
  fun store => (fun result => (result, store)) <$> attempt.run

instance : MonadLift Attempt Update := ⟨ofAttempt⟩

/-- Writes a value under a key. -/
def write (key value : Bytes) : Update Unit :=
  fun store =>
    match store.set key value with
    | .ok store => pure (.ok (), store)
    | .error e => pure (.error (.store e), store)

@[simp] theorem run_pure (a : α) (store : HostStore) :
    (pure a : Update α).run.run store = pure (.ok a, store) := rfl

@[simp] theorem run_throw (e : Error) (store : HostStore) :
    (throw e : Update α).run.run store = pure (.error e, store) := rfl

@[simp] theorem run_getThe (store : HostStore) :
    (getThe HostStore : Update HostStore).run.run store = pure (.ok store, store) := rfl

@[simp] theorem run_lift (attempt : Attempt α) (store : HostStore) :
    (liftM attempt : Update α).run.run store = (fun result => (result, store)) <$> attempt.run :=
  rfl

@[simp] theorem run_record (e : Event) (store : HostStore) :
    (record e : Update Unit).run.run store = (fun _ => (.ok (), store)) <$> Logged.record e := rfl

@[simp] theorem run_ofExcept (r : Except Error α) (store : HostStore) :
    (MonadExcept.ofExcept r : Update α).run.run store = pure (r, store) := by
  cases r <;> rfl

theorem run_write (key value : Bytes) (store : HostStore) :
    (write key value).run.run store =
      match store.set key value with
      | .ok store => pure (.ok (), store)
      | .error e => pure (.error (.store e), store) := rfl

/-- A computation goes on where the one before it succeeded. -/
theorem value_bind (x : Update α) (f : α → Update β) (store : HostStore) :
    ((x >>= f).run.run store).value =
      match (x.run.run store).value with
      | (.ok a, store) => ((f a).run.run store).value
      | (.error e, store) => (.error e, store) := by
  rw [ExceptT.run_bind, StateT.run_bind, Logged.value_bind]
  rcases (x.run.run store).value with ⟨_ | _, _⟩ <;> rfl

/-- The events of a computation come before those of the one that goes on. -/
theorem events_bind (x : Update α) (f : α → Update β) (store : HostStore) :
    ((x >>= f).run.run store).events = (x.run.run store).events ++
      match (x.run.run store).value with
      | (.ok a, store) => ((f a).run.run store).events
      | (.error _, _) => [] := by
  rw [ExceptT.run_bind, StateT.run_bind, Logged.events_bind]
  rcases (x.run.run store).value with ⟨_ | _, _⟩ <;> rfl

/-- A failure is handled on the store that it left. -/
theorem value_tryCatch (x : Update α) (f : Error → Update α) (store : HostStore) :
    ((tryCatch x f).run.run store).value =
      match (x.run.run store).value with
      | (.ok a, store) => (.ok a, store)
      | (.error e, store) => ((f e).run.run store).value := by
  change ((ExceptT.tryCatch x f).run.run store).value = _
  rw [ExceptT.tryCatch, ExceptT.run_mk]
  change (StateT.run (x.run >>= _) store).value = _
  rw [StateT.run_bind, Logged.value_bind]
  rcases (x.run.run store).value with ⟨_ | _, _⟩ <;> rfl

end Update

end SecondFactor
