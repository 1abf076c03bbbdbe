import SecondFactor.Bindings

/-!
# Laws of Bindings

What reading, writing and binding do to the host's store, with every pattern of failing calls.
Writes are described by what the contents become: `Store.bind` for one binding and
`Store.bindAll` for several in order. The main statements are `get?_bindAll_of_mem` and
`get?_bindAll_of_forall_ne`: what is found after several writes.
-/

namespace SecondFactor

/-- Different identities have different store keys. -/
theorem Identity.storeKey_injective {x y : Identity} (h : x.storeKey = y.storeKey) : x = y := by
  -- The first byte tells the kinds apart, and the rest is the address.
  obtain ⟨hnamespace, haddress⟩ := List.cons.inj h
  cases x <;> cases y
  case account.account => exact congrArg account (FixedBytes.ext haddress)
  case validator.validator => exact congrArg validator (FixedBytes.ext haddress)
  all_goals simp [namespaceByte] at hnamespace

/-! ## Writing to the contents -/

namespace Store

/-- The contents with a binding written. -/
def bind (contents : Store) (binding : Binding) : Store :=
  contents.set binding.identity.storeKey binding.publicKey

/-- The contents with bindings written one after the other. -/
def bindAll (contents : Store) (bindings : List Binding) : Store :=
  bindings.foldl bind contents

@[simp] theorem bindAll_nil (contents : Store) : contents.bindAll [] = contents := rfl

@[simp] theorem bindAll_cons (contents : Store) (binding : Binding) (rest : List Binding) :
    contents.bindAll (binding :: rest) = (contents.bind binding).bindAll rest := rfl

theorem get?_bind_self (contents : Store) (binding : Binding) :
    (contents.bind binding).get? binding.identity.storeKey = some binding.publicKey := by
  rw [bind, get?_set, if_pos rfl]

theorem get?_bind_of_ne (contents : Store) {binding : Binding} {key : Bytes}
    (h : binding.identity.storeKey ≠ key) :
    (contents.bind binding).get? key = contents.get? key := by
  rw [bind, get?_set, if_neg h.symm]

/-- Bindings of other identities leave a key alone. -/
theorem get?_bindAll_of_forall_ne (contents : Store) {bindings : List Binding} {key : Bytes}
    (h : ∀ binding ∈ bindings, binding.identity.storeKey ≠ key) :
    (contents.bindAll bindings).get? key = contents.get? key := by
  induction bindings generalizing contents with
  | nil => rfl
  | cons binding rest ih =>
    obtain ⟨hhead, hrest⟩ := List.forall_mem_cons.1 h
    rw [bindAll_cons, ih _ hrest, get?_bind_of_ne _ hhead]

/-- Writing bindings takes nothing away. -/
theorem isSome_get?_bindAll {contents : Store} (bindings : List Binding) {key : Bytes}
    (h : (contents.get? key).isSome) : ((contents.bindAll bindings).get? key).isSome := by
  induction bindings generalizing contents with
  | nil => exact h
  | cons binding rest ih =>
    refine ih ?_
    by_cases hkey : binding.identity.storeKey = key
    · rw [← hkey, get?_bind_self]
      rfl
    · rwa [get?_bind_of_ne _ hkey]

/-- Of bindings of different identities each one is found after all were written. -/
theorem get?_bindAll_of_mem (contents : Store) {bindings : List Binding} {binding : Binding}
    (hnodup : (bindings.map Binding.identity).Nodup) (h : binding ∈ bindings) :
    (contents.bindAll bindings).get? binding.identity.storeKey = some binding.publicKey := by
  induction bindings generalizing contents with
  | nil => cases h
  | cons head rest ih =>
    obtain ⟨hhead, hrest⟩ := List.nodup_cons.1 hnodup
    rw [bindAll_cons]
    rcases List.mem_cons.1 h with rfl | hmem
    · -- The later bindings are of other identities, so they leave the first one in place.
      rw [get?_bindAll_of_forall_ne, get?_bind_self]
      intro other hother hkey
      exact hhead (List.mem_map.2 ⟨other, hother, Identity.storeKey_injective hkey⟩)
    · exact ih _ hrest hmem

end Store

namespace HostStore

/-- Whether the store can write a binding. -/
def accepts (store : HostStore) (binding : Binding) : Bool :=
  (store.faults.write binding.identity.storeKey).isNone

/-- The store with other contents and the same faults. -/
def withContents (store : HostStore) (contents : Store) : HostStore :=
  { store with contents }

@[simp] theorem contents_withContents (store : HostStore) (contents : Store) :
    (store.withContents contents).contents = contents := rfl

@[simp] theorem accepts_withContents (store : HostStore) (contents : Store) :
    (store.withContents contents).accepts = store.accepts := rfl

@[simp] theorem withContents_withContents (store : HostStore) (contents contents' : Store) :
    (store.withContents contents).withContents contents' = store.withContents contents' := rfl

end HostStore

/-! ## Reading and writing through the host -/

namespace Bindings

/-- A binding is read only where the read succeeds, and then it is the one in the contents. -/
theorem get_eq_ok_iff {store : HostStore} {identity : Identity} {value : Option Bytes} :
    get store identity = .ok value ↔
      store.faults.read identity.storeKey = none ∧
        store.contents.get? identity.storeKey = value := by
  unfold get HostStore.get
  cases store.faults.read identity.storeKey <;> simp

/-- A binding that cannot be read is so for want of the store. -/
theorem get_cases (store : HostStore) (identity : Identity) :
    (∃ value, get store identity = .ok value) ∨ ∃ e, get store identity = .error (.store e) := by
  unfold get
  cases store.get identity.storeKey with
  | ok value => exact .inl ⟨value, rfl⟩
  | error e => exact .inr ⟨e, rfl⟩

@[simp] theorem get_reliable (contents : Store) (identity : Identity) :
    get (.reliable contents) identity = .ok (contents.get? identity.storeKey) :=
  get_eq_ok_iff.2 ⟨rfl, rfl⟩

/-- Writing a binding either writes it or fails and leaves the store as it is. -/
theorem value_set (binding : Binding) (store : HostStore) :
    ((set binding).run.run store).value =
      match store.faults.write binding.identity.storeKey with
      | none => (.ok (), store.withContents (store.contents.bind binding))
      | some e => (.error (.store e), store) := by
  rw [set, Update.value_bind, Update.run_record, Logged.value_map]
  change ((Update.write _ _).run.run store).value = _
  rw [Update.run_write, HostStore.set]
  cases store.faults.write binding.identity.storeKey <;> rfl

end Bindings

end SecondFactor
