import Mathlib.Data.Finset.Card
import Mathlib.Data.List.Sort
import SecondFactor.Proofs.Store

/-!
# Runs of Writes

A store is a canonical form of what has been written to it. After any run of writes there is under
each key the value of its last write, and an empty store then lists just the keys
that were written, each once and in ascending order. Two runs therefore lead to the same entries
exactly if they end alike for every key.

## Main definitions

* `Store.keys`: the keys as a store lists them;
* `Store.setAll`, `HostStore.setAll`: a run of writes, in memory and through the host;
* `Store.lastWritten`: the value of the last write of a key.

## Main results

* `Store.get?_setAll`: what is found after a run of writes;
* `Store.setAll_canonical`: what an empty store is after a run of writes.
-/

namespace SecondFactor

/-! ## The keys -/

namespace Store

/-- The keys, in the order of the entries. -/
def keys (store : Store) : List Bytes :=
  store.entries.map Prod.fst

/-- The keys are listed in ascending order. -/
theorem pairwise_keys (store : Store) : store.keys.Pairwise (· < ·) :=
  List.pairwise_map.2 store.ascending

/-- No key is listed twice. -/
theorem nodup_keys (store : Store) : store.keys.Nodup :=
  store.pairwise_keys.nodup

/-- The keys that are listed are those under which something is found. -/
theorem mem_keys_iff {store : Store} {key : Bytes} :
    key ∈ store.keys ↔ (store.get? key).isSome := by
  rw [keys, List.mem_map, Option.isSome_iff_exists]
  constructor
  · rintro ⟨⟨_, value⟩, hentry, rfl⟩
    exact ⟨value, mem_entries_iff.1 hentry⟩
  · rintro ⟨value, hvalue⟩
    exact ⟨(key, value), mem_entries_iff.2 hvalue, rfl⟩

/-- A store has a key if something is found under it. -/
theorem contains_eq (store : Store) (key : Bytes) :
    store.contains key = (store.get? key).isSome := by
  rw [Bool.eq_iff_iff, ← mem_keys_iff]
  simp [contains, keys]

/-- The size is the number of different keys. -/
theorem size_eq_card (store : Store) : store.size = store.keys.toFinset.card := by
  rw [List.toFinset_card_of_nodup store.nodup_keys, keys, List.length_map, size]

/-! ## Writing -/

/-- The store after writes, one after the other. -/
def setAll (store : Store) (writes : List (Bytes × Bytes)) : Store :=
  writes.foldl (fun store write => store.set write.1 write.2) store

/-- The value of the last write of a key, if there is a write of it. -/
def lastWritten (writes : List (Bytes × Bytes)) (key : Bytes) : Option Bytes :=
  ((writes.filter fun write => write.1 = key).getLast?).map Prod.snd

theorem setAll_concat (store : Store) (writes : List (Bytes × Bytes)) (write : Bytes × Bytes) :
    store.setAll (writes ++ [write]) = (store.setAll writes).set write.1 write.2 := by
  simp [setAll]

/-- A further write is the last one of its key. -/
theorem lastWritten_concat (writes : List (Bytes × Bytes)) (write : Bytes × Bytes) (key : Bytes) :
    lastWritten (writes ++ [write]) key =
      if key = write.1 then some write.2 else lastWritten writes key := by
  by_cases hkey : key = write.1
  · simp [lastWritten, hkey]
  · simp [lastWritten, hkey, Ne.symm hkey]

/-- The keys that have a last write are those that are written. -/
theorem isSome_lastWritten_iff {writes : List (Bytes × Bytes)} {key : Bytes} :
    (lastWritten writes key).isSome ↔ key ∈ writes.map Prod.fst := by
  simp [lastWritten]

/-- Under each key there is after a run of writes what was written there last, or else what was
there before. -/
theorem get?_setAll (store : Store) (writes : List (Bytes × Bytes)) (key : Bytes) :
    (store.setAll writes).get? key = (lastWritten writes key).or (store.get? key) := by
  -- Writes are added at the end, since the last one of a key is the one that decides.
  induction writes using List.reverseRecOn with
  | nil => rfl
  | append_singleton writes write ih =>
    rw [setAll_concat, get?_set, lastWritten_concat]
    split
    · rw [Option.some_or]
    · exact ih

/-- What an empty store holds after a run of writes is what was written. -/
theorem get?_setAll_empty (writes : List (Bytes × Bytes)) (key : Bytes) :
    (empty.setAll writes).get? key = lastWritten writes key := by
  rw [get?_setAll, get?_empty, Option.or_none]

/-- An empty store lists after a run of writes the keys that were written. -/
theorem mem_keys_setAll_empty {writes : List (Bytes × Bytes)} {key : Bytes} :
    key ∈ (empty.setAll writes).keys ↔ key ∈ writes.map Prod.fst := by
  rw [mem_keys_iff, get?_setAll_empty, isSome_lastWritten_iff]

/-- Writing bindings is writing public keys under the store keys of their identities. -/
theorem bindAll_eq_setAll (store : Store) (bindings : List Binding) :
    store.bindAll bindings =
      store.setAll (bindings.map fun binding =>
        (binding.identity.storeKey, binding.publicKey)) := by
  rw [setAll, List.foldl_map]
  rfl

end Store

/-! ## Writing through the host -/

namespace HostStore

/-- The store after writes, one after the other, if none of them fails. -/
def setAll (store : HostStore) (writes : List (Bytes × Bytes)) : Except StoreError HostStore :=
  writes.foldlM (fun store write => store.set write.1 write.2) store

/-- On a store that does not fail every run of writes goes through. -/
theorem setAll_reliable (contents : Store) (writes : List (Bytes × Bytes)) :
    (reliable contents).setAll writes = .ok (reliable (contents.setAll writes)) := by
  -- The run goes on with what the first write leaves.
  induction writes generalizing contents with
  | nil => rfl
  | cons write rest ih => exact ih (contents.set write.1 write.2)

theorem get_reliable (contents : Store) (key : Bytes) :
    (reliable contents).get key = .ok (contents.get? key) := rfl

theorem has_reliable (contents : Store) (key : Bytes) :
    (reliable contents).has key = .ok (contents.get? key).isSome := rfl

end HostStore

/-- Any run of writes to an empty store goes through and leaves a canonical map. Under each key the
value of its last write is found, or nothing if there was none, and the key is reported as there
accordingly; the size is the number of different keys that were written; the entries are listed in
strictly ascending order of their keys, and no key stands twice. After two runs the same entries are
listed exactly if the last writes of every key agree. -/
theorem Store.setAll_canonical :
    (∀ writes : List (Bytes × Bytes),
      (HostStore.reliable empty).setAll writes = .ok (.reliable (empty.setAll writes)) ∧
      (∀ key,
        (HostStore.reliable (empty.setAll writes)).get key = .ok (lastWritten writes key) ∧
        (HostStore.reliable (empty.setAll writes)).has key = .ok (lastWritten writes key).isSome ∧
        (empty.setAll writes).contains key = (lastWritten writes key).isSome) ∧
      (empty.setAll writes).size = (writes.map Prod.fst).toFinset.card ∧
      (empty.setAll writes).entries.Pairwise (fun a b => a.1 < b.1) ∧
      (empty.setAll writes).keys.Nodup) ∧
    ∀ writes others : List (Bytes × Bytes),
      (empty.setAll writes).entries = (empty.setAll others).entries ↔
        ∀ key, lastWritten writes key = lastWritten others key := by
  constructor
  · intro writes
    refine ⟨HostStore.setAll_reliable empty writes, fun key => ?_, ?_, ascending _, nodup_keys _⟩
    · rw [HostStore.get_reliable, HostStore.has_reliable, contains_eq, get?_setAll_empty]
      exact ⟨rfl, rfl, rfl⟩
    · -- The keys that are counted are those that were written.
      rw [size_eq_card]
      congr 1
      ext key
      rw [List.mem_toFinset, List.mem_toFinset, mem_keys_setAll_empty]
  · intro writes others
    constructor
    · intro hentries key
      rw [← get?_setAll_empty, ← get?_setAll_empty, Store.ext hentries]
    · intro hlast
      -- What is found in the two stores is the same, so they are the same store.
      have hstores : empty.setAll writes = empty.setAll others := by
        apply ext_get?
        intro key
        rw [get?_setAll_empty, get?_setAll_empty, hlast key]
      rw [hstores]

/-- A key that is written twice has the value of the second time, in the place of the key. -/
example : (Store.empty.setAll [([1, 9], [1]), ([0, 3], [2]), ([1, 9], [3])]).entries =
    [([0, 3], [2]), ([1, 9], [3])] := by
  decide

end SecondFactor
