import SecondFactor.Bytes

/-!
# Key-Value Store

A store maps byte strings to byte strings. It is kept as a list of entries in strictly ascending
order of their keys, so a store has one form only: replicas that made the same writes hold equal
stores, and the list of entries is the snapshot by which they are compared.
-/

namespace SecondFactor

/-- A finite map between byte strings. -/
@[ext] structure Store where
  /-- The keys with their values. -/
  entries : List (Bytes × Bytes)
  /-- The keys ascend, each standing once. -/
  ascending : entries.Pairwise fun a b => a.1 < b.1
deriving DecidableEq

namespace Store

/-- The store without entries. -/
def empty : Store := ⟨[], .nil⟩

/-- The value under a key. -/
def get? (store : Store) (key : Bytes) : Option Bytes :=
  store.entries.lookup key

/-- Whether a key has a value. -/
def contains (store : Store) (key : Bytes) : Bool :=
  store.entries.any fun entry => entry.1 == key

/-- The number of keys. -/
def size (store : Store) : Nat :=
  store.entries.length

/-- Puts an entry in its place among ascending ones, in the stead of one with the same key. -/
def insertEntry (key value : Bytes) : List (Bytes × Bytes) → List (Bytes × Bytes)
  | [] => [(key, value)]
  | (key', value') :: rest =>
    -- A greater key comes next: this is the place.
    if key < key' then (key, value) :: (key', value') :: rest
    else if key = key' then (key, value) :: rest
    else (key', value') :: insertEntry key value rest

/-- Keys that do not precede each other are equal. -/
theorem lt_of_not_lt_of_ne {a b : Bytes} (h : ¬a < b) (hne : a ≠ b) : b < a := by
  rcases List.le_iff_lt_or_eq.1 (List.not_lt.1 h) with h | h
  · exact h
  · exact absurd h.symm hne

/-- The keys after an insertion are the inserted one and those before it. -/
theorem mem_insertEntry {key value : Bytes} {entry : Bytes × Bytes} {entries : List (Bytes × Bytes)}
    (h : entry ∈ insertEntry key value entries) : entry = (key, value) ∨ entry ∈ entries := by
  induction entries with
  | nil => simpa [insertEntry] using h
  | cons head rest ih =>
    obtain ⟨key', value'⟩ := head
    unfold insertEntry at h
    split at h
    · simpa using h
    · split at h
      · rcases List.mem_cons.1 h with h | h
        · exact .inl h
        · exact .inr (List.mem_cons_of_mem _ h)
      · rcases List.mem_cons.1 h with h | h
        · exact .inr (h ▸ List.mem_cons_self)
        · exact (ih h).imp id (List.mem_cons_of_mem _)

/-- An insertion keeps the keys ascending. -/
theorem pairwise_insertEntry {key value : Bytes} {entries : List (Bytes × Bytes)}
    (h : entries.Pairwise fun a b => a.1 < b.1) :
    (insertEntry key value entries).Pairwise fun a b => a.1 < b.1 := by
  induction entries with
  | nil => simp [insertEntry]
  | cons head rest ih =>
    obtain ⟨key', value'⟩ := head
    obtain ⟨hhead, hrest⟩ := List.pairwise_cons.1 h
    unfold insertEntry
    split
    · next hlt =>
      refine List.pairwise_cons.2 ⟨fun entry hentry => ?_, h⟩
      rcases List.mem_cons.1 hentry with rfl | hentry
      · exact hlt
      · exact List.lt_trans hlt (hhead entry hentry)
    · next hlt =>
      split
      · next heq => exact List.pairwise_cons.2 ⟨fun entry hentry => heq ▸ hhead entry hentry, hrest⟩
      · next hne =>
        refine List.pairwise_cons.2 ⟨fun entry hentry => ?_, ih hrest⟩
        rcases mem_insertEntry hentry with rfl | hentry
        · exact lt_of_not_lt_of_ne hlt hne
        · exact hhead entry hentry

/-- The store with a value under a key, in the stead of any value it had there. -/
def set (store : Store) (key value : Bytes) : Store :=
  ⟨insertEntry key value store.entries, pairwise_insertEntry store.ascending⟩

/-- A key is found in the first entry or among the others. -/
theorem lookup_entry (key value k : Bytes) (rest : List (Bytes × Bytes)) :
    ((key, value) :: rest).lookup k = if k = key then some value else rest.lookup k := by
  by_cases h : k = key
  · simp [h]
  · rw [List.lookup_cons, beq_false_of_ne h, if_neg h]

/-- An insertion changes what is found under its key only. -/
theorem lookup_insertEntry (key value k : Bytes) (entries : List (Bytes × Bytes)) :
    (insertEntry key value entries).lookup k =
      if k = key then some value else entries.lookup k := by
  induction entries with
  | nil => exact lookup_entry key value k []
  | cons head rest ih =>
    obtain ⟨key', value'⟩ := head
    unfold insertEntry
    split
    · exact lookup_entry key value k ((key', value') :: rest)
    · split
      · next heq =>
        subst heq
        rw [lookup_entry, lookup_entry]
        by_cases hk : k = key <;> simp [hk]
      · next hne =>
        rw [lookup_entry, lookup_entry, ih]
        by_cases hk : k = key'
        · simp [hk, Ne.symm hne]
        · simp [hk]

@[simp] theorem get?_empty (key : Bytes) : empty.get? key = none := rfl

/-- A write changes what is found under its key only. -/
theorem get?_set (store : Store) (key value k : Bytes) :
    (store.set key value).get? k = if k = key then some value else store.get? k :=
  lookup_insertEntry key value k store.entries

end Store

end SecondFactor
