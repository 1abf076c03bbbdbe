import SecondFactor.Event

/-!
# Results with Events

A computation of the library gives its result together with the events of its course, in their
order. `Attempt` is such a computation that may fail; the events before the failure stay.
-/

namespace SecondFactor

/-- A result and the events on the way to it. -/
@[ext] structure Logged (α : Type) where
  /-- The result. -/
  value : α
  /-- The events, the earliest first. -/
  events : List Event
deriving DecidableEq

namespace Logged

instance : Monad Logged where
  pure a := ⟨a, []⟩
  bind x f := ⟨(f x.value).value, x.events ++ (f x.value).events⟩

/-- The computation that records an event and does nothing else. -/
def record (e : Event) : Logged Unit := ⟨(), [e]⟩

variable {α β : Type}

@[simp] theorem value_pure (a : α) : (pure a : Logged α).value = a := rfl

@[simp] theorem events_pure (a : α) : (pure a : Logged α).events = [] := rfl

@[simp] theorem value_bind (x : Logged α) (f : α → Logged β) :
    (x >>= f).value = (f x.value).value := rfl

@[simp] theorem events_bind (x : Logged α) (f : α → Logged β) :
    (x >>= f).events = x.events ++ (f x.value).events := rfl

@[simp] theorem value_map (f : α → β) (x : Logged α) : (f <$> x).value = f x.value := rfl

@[simp] theorem events_map (f : α → β) (x : Logged α) : (f <$> x).events = x.events :=
  List.append_nil _

@[simp] theorem value_record (e : Event) : (record e).value = () := rfl

@[simp] theorem events_record (e : Event) : (record e).events = [e] := rfl

/-- What comes after a computation depends on its result only. -/
theorem bind_congr_value {x : Logged α} {f g : α → Logged β} (h : f x.value = g x.value) :
    x >>= f = x >>= g := by
  ext1
  · rw [value_bind, value_bind, h]
  · rw [events_bind, events_bind, h]

instance : LawfulMonad Logged :=
  LawfulMonad.mk' Logged
    (fun x => by
      change (⟨x.value, x.events ++ []⟩ : Logged _) = x
      simp)
    (fun a f => by
      change (⟨(f a).value, [] ++ (f a).events⟩ : Logged _) = f a
      simp)
    (fun x f g => by
      ext1
      · rfl
      · simp)

end Logged

/-- A computation that may fail. -/
abbrev Attempt := ExceptT Error Logged

/-- Records an event. -/
def record {m : Type → Type} [MonadLiftT Logged m] (e : Event) : m Unit :=
  liftM (Logged.record e)

@[simp] theorem record_eq (e : Event) : (record e : Logged Unit) = Logged.record e := rfl

namespace Attempt

variable {α β : Type}

/-- A result, or a failure that is recorded as an event made from the error. -/
def orRecord (event : Error → Event) : Except Error α → Attempt α
  | .ok a => pure a
  | .error e => do
    record (event e)
    throw e

@[simp] theorem run_record (e : Event) :
    (record e : Attempt Unit).run = .ok <$> Logged.record e := rfl

@[simp] theorem run_ofExcept (r : Except Error α) :
    (MonadExcept.ofExcept r : Attempt α).run = pure r := by
  cases r <;> rfl

/-- A computation goes on where the one before it succeeded. -/
theorem value_bind (x : Attempt α) (f : α → Attempt β) :
    (x >>= f).run.value =
      match x.run.value with
      | .ok a => (f a).run.value
      | .error e => .error e := by
  rw [ExceptT.run_bind, Logged.value_bind]
  cases x.run.value <;> rfl

/-- The events of a computation come before those of the one that goes on. -/
theorem events_bind (x : Attempt α) (f : α → Attempt β) :
    (x >>= f).run.events = x.run.events ++
      match x.run.value with
      | .ok a => (f a).run.events
      | .error _ => [] := by
  rw [ExceptT.run_bind, Logged.events_bind]
  cases x.run.value <;> rfl

@[simp] theorem run_orRecord_ok (event : Error → Event) (a : α) :
    (orRecord event (.ok a)).run = pure (.ok a) := rfl

@[simp] theorem run_orRecord_error (event : Error → Event) (e : Error) :
    (orRecord event (.error e : Except Error α)).run = ⟨.error e, [event e]⟩ := rfl

end Attempt

end SecondFactor
