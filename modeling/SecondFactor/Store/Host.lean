import SecondFactor.Error
import SecondFactor.Store

/-!
# The Host's Store

The store that the library works on belongs to the host, and reading and writing may fail. Faults
are given by key. No operation of a node reads a key twice or writes a key twice
(`Node.once_calls`), so faults by key describe every way in which the calls of an operation can fail
(`Node.exists_perform_eq`). A write that fails leaves the contents as they are.
-/

namespace SecondFactor

/-- Which keys cannot be read and which cannot be written. -/
structure Faults where
  /-- The error of reading a key, if it fails. -/
  read : Bytes → Option StoreError
  /-- The error of writing a key, if it fails. -/
  write : Bytes → Option StoreError

/-- Nothing fails. -/
def Faults.none : Faults := ⟨fun _ => .none, fun _ => .none⟩

/-- A store whose calls may fail. -/
structure HostStore where
  /-- What is stored. -/
  contents : Store
  /-- The calls that fail. -/
  faults : Faults

namespace HostStore

/-- A store that does not fail. -/
def reliable (contents : Store) : HostStore := ⟨contents, .none⟩

/-- The value under a key. -/
def get (store : HostStore) (key : Bytes) : Except StoreError (Option Bytes) :=
  match store.faults.read key with
  | some e => .error e
  | none => .ok (store.contents.get? key)

/-- Whether a key has a value. -/
def has (store : HostStore) (key : Bytes) : Except StoreError Bool :=
  match store.get key with
  | .error e => .error e
  | .ok value => .ok value.isSome

/-- The store after a write. -/
def set (store : HostStore) (key value : Bytes) : Except StoreError HostStore :=
  match store.faults.write key with
  | some e => .error e
  | none => .ok { store with contents := store.contents.set key value }

end HostStore

end SecondFactor
