import SecondFactor.Proofs.Store.Calls

/-!
# Calls to the Store that May Fail

`Calling` is a computation call by call that may fail, as `Attempt` and `Update` are for a store
with faults by key. Rules for each way of putting computations together show that such a
computation does the same as one that only reads (`Calling.Reads`), or as one that may write
(`Calling.Performs`), and that it uses no key twice (`once_bind` and the lemmas after it).
-/

namespace SecondFactor

/-- A computation on the host's store, call by call, that may fail. -/
abbrev Calling := ExceptT Error Calls

instance : MonadLift Attempt Calling := ⟨fun attempt => ExceptT.mk (Calls.ofLogged attempt.run)⟩

namespace Calling

variable {α β : Type}

/-- Asks for the value under a key. -/
def read (key : Bytes) : Calling (Option Bytes) :=
  ExceptT.mk (.read key fun answer => .done (answer.mapError .store))

/-- Has a value written under a key. -/
def write (key value : Bytes) : Calling Unit :=
  ExceptT.mk (.write key value fun answer => .done (answer.mapError .store))

/-- What a computation comes to, be it a failure. -/
def result (x : Calling α) : Calling (Except Error α) :=
  ExceptT.lift x.run

/-! ## Computations that only read -/

/-- `x.Reads f`: on every store `x` comes to what `f` comes to, and it leaves the store alone. -/
def Reads (x : Calling α) (f : HostStore → Attempt α) : Prop :=
  ∀ store, x.run.byKey.run store = (fun result => (result, store)) <$> (f store).run

namespace Reads

theorem pure (a : α) : Reads (Pure.pure a) fun _ => Pure.pure a := fun _ => rfl

theorem throw (e : Error) : Reads (throw e : Calling α) fun _ => MonadExcept.throw e :=
  fun _ => rfl

theorem lift (attempt : Attempt α) : Reads (liftM attempt) fun _ => attempt := fun store =>
  congrFun (Calls.byKey_lift attempt.run) store

theorem ofExcept (r : Except Error α) :
    Reads (MonadExcept.ofExcept r) fun _ => MonadExcept.ofExcept r := by
  cases r <;> exact fun _ => rfl

theorem bind {x : Calling α} {f : HostStore → Attempt α} {g : α → Calling β}
    {h : α → HostStore → Attempt β} (hx : x.Reads f) (hg : ∀ a, (g a).Reads (h a)) :
    (x >>= g).Reads fun store => f store >>= fun a => h a store := by
  intro store
  rw [ExceptT.run_bind, Calls.byKey_bind, StateT.run_bind, hx store, ExceptT.run_bind, map_bind,
    bind_map_left]
  refine bind_congr fun result => ?_
  cases result with
  | ok a => exact hg a store
  | error e => rfl

variable {x : Calling α} {found : HostStore → Except Error α}

/-- After a read the computation goes on with what was found, or fails. -/
theorem byKey_bind (hx : x.Reads fun store => MonadExcept.ofExcept (found store))
    (g : α → Calling β) (store : HostStore) :
    (x >>= g).run.byKey.run store =
      match found store with
      | .ok a => (g a).run.byKey.run store
      | .error e => Pure.pure (.error e, store) := by
  rw [ExceptT.run_bind, Calls.byKey_bind, StateT.run_bind, hx store, Attempt.run_ofExcept,
    map_pure, pure_bind]
  cases found store <;> rfl

/-- With the result of a read it goes on in either case. -/
theorem byKey_result_bind (hx : x.Reads fun store => MonadExcept.ofExcept (found store))
    (g : Except Error α → Calling β) (store : HostStore) :
    (x.result >>= g).run.byKey.run store = (g (found store)).run.byKey.run store := by
  rw [ExceptT.run_bind, result, ExceptT.run_lift, Calls.byKey_bind, Calls.byKey_map,
    bind_map_left, StateT.run_bind, hx store, Attempt.run_ofExcept, map_pure, pure_bind]

end Reads

/-! ## Computations that may write -/

/-- `x.Performs u`: on every store `x` does what `u` does. -/
def Performs (x : Calling α) (u : Update α) : Prop :=
  ∀ store, x.run.byKey.run store = u.run.run store

namespace Performs

theorem pure (a : α) : Performs (Pure.pure a) (Pure.pure a) := fun _ => rfl

theorem throw (e : Error) : Performs (MonadExcept.throw e : Calling α) (MonadExcept.throw e) :=
  fun _ => rfl

theorem lift (attempt : Attempt α) : Performs (liftM attempt) (liftM attempt) := fun store =>
  congrFun (Calls.byKey_lift attempt.run) store

theorem ofExcept (r : Except Error α) :
    Performs (MonadExcept.ofExcept r) (MonadExcept.ofExcept r) := by
  cases r <;> exact fun _ => rfl

theorem write (key value : Bytes) : Performs (write key value) (Update.write key value) := by
  intro store
  show (Calls.write key value _).byKey store = _
  rw [Calls.byKey_write, Update.run_write]
  cases store.set key value <;> rfl

theorem bind {x : Calling α} {u : Update α} {g : α → Calling β} {v : α → Update β}
    (hx : x.Performs u) (hg : ∀ a, (g a).Performs (v a)) : (x >>= g).Performs (u >>= v) := by
  intro store
  rw [ExceptT.run_bind, Calls.byKey_bind, StateT.run_bind, hx store, ExceptT.run_bind,
    StateT.run_bind]
  refine bind_congr fun (result, store) => ?_
  cases result with
  | ok a => exact hg a store
  | error e => rfl

/-- What is read first is handed on. -/
theorem bind_reads {x : Calling α} {f : HostStore → Attempt α} {g : α → Calling β}
    {v : α → Update β} (hx : x.Reads f) (hg : ∀ a, (g a).Performs (v a)) :
    (x >>= g).Performs (do let a ← f (← getThe HostStore); v a) := by
  have hread : x.Performs (do f (← getThe HostStore)) := hx
  have h := bind hread hg
  rwa [bind_assoc] at h

theorem tryCatch {x : Calling α} {u : Update α} {g : Error → Calling α} {v : Error → Update α}
    (hx : x.Performs u) (hg : ∀ e, (g e).Performs (v e)) :
    Performs (MonadExcept.tryCatch x g) (MonadExcept.tryCatch u v) := by
  intro store
  show (ExceptT.tryCatch x g).run.byKey.run store = (ExceptT.tryCatch u v).run.run store
  rw [ExceptT.tryCatch, ExceptT.tryCatch, ExceptT.run_mk, ExceptT.run_mk, Calls.byKey_bind]
  show (x.run.byKey >>= _).run store = (u.run >>= _).run store
  rw [StateT.run_bind, StateT.run_bind, hx store]
  refine bind_congr fun (result, store) => ?_
  cases result with
  | ok a => rfl
  | error e => exact hg e store

end Performs

/-! ## No key twice -/

variable {x : Calling α} {last : List Bytes → List Bytes → Except Error β → Prop}
  {reads writes : List Bytes}

/-- A result that is at hand uses no key up. -/
theorem once_ofExcept {post : List Bytes → List Bytes → Except Error α → Prop}
    {r : Except Error α} (h : post reads writes r) :
    (MonadExcept.ofExcept r : Calling α).run.Once post reads writes := by
  cases r <;> exact h

/-- A failure ends both computations; otherwise the second one starts with the keys that the first
one has used up. -/
theorem once_bind {f : α → Calling β} (post : List Bytes → List Bytes → Except Error α → Prop)
    (hx : x.run.Once post reads writes)
    (hok : ∀ reads writes a, post reads writes (.ok a) → (f a).run.Once last reads writes)
    (herror : ∀ reads writes e, post reads writes (.error e) → last reads writes (.error e)) :
    (x >>= f).run.Once last reads writes := by
  rw [ExceptT.run_bind]
  refine .bind (hx.mono fun reads writes result h => ?_)
  cases result with
  | ok a => exact hok reads writes a h
  | error e => exact herror reads writes e h

/-- Where any end is right a failure is. -/
theorem once_bind_anyEnd {f : α → Calling β}
    (post : List Bytes → List Bytes → Except Error α → Prop)
    (hx : x.run.Once post reads writes)
    (hok : ∀ reads writes a, post reads writes (.ok a) →
      (f a).run.Once Calls.anyEnd reads writes) :
    (x >>= f).run.Once Calls.anyEnd reads writes :=
  once_bind post hx hok fun _ _ _ _ => trivial

/-- A computation that makes no call uses no key up. -/
theorem once_lift_bind {attempt : Attempt α} {f : α → Calling β}
    (hok : ∀ a, (f a).run.Once last reads writes) (herror : ∀ e, last reads writes (.error e)) :
    (liftM attempt >>= f : Calling β).run.Once last reads writes := by
  refine once_bind (fun reads' writes' _ => reads' = reads ∧ writes' = writes)
    (.lift ⟨rfl, rfl⟩) ?_ ?_
  · rintro _ _ a ⟨rfl, rfl⟩
    exact hok a
  · rintro _ _ e ⟨rfl, rfl⟩
    exact herror e

theorem once_ofExcept_bind {r : Except Error α} {f : α → Calling β}
    (hok : ∀ a, r = .ok a → (f a).run.Once last reads writes)
    (herror : ∀ e, r = .error e → last reads writes (.error e)) :
    (MonadExcept.ofExcept r >>= f : Calling β).run.Once last reads writes := by
  cases r with
  | ok a => exact hok a rfl
  | error e => exact herror e rfl

/-- What a computation comes to is handed on, be it a failure. -/
theorem once_result_bind {f : Except Error α → Calling β}
    (h : x.run.Once (fun reads writes result => (f result).run.Once last reads writes)
      reads writes) :
    (x.result >>= f).run.Once last reads writes := by
  rw [ExceptT.run_bind, result, ExceptT.run_lift]
  exact .bind (.bind h)

/-- A failure is handled with the keys that are used up. -/
theorem once_tryCatch {post : List Bytes → List Bytes → Except Error α → Prop}
    {f : Error → Calling α}
    (hx : x.run.Once (fun reads writes result => match result with
      | .ok a => post reads writes (.ok a)
      | .error e => (f e).run.Once post reads writes) reads writes) :
    (tryCatch x f).run.Once post reads writes := by
  refine .bind (hx.mono fun reads writes result h => ?_)
  cases result <;> exact h

end Calling

end SecondFactor
