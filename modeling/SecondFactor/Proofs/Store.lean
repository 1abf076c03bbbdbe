import Mathlib.Data.List.Sort
import SecondFactor.Proofs.Bindings

/-!
# Laws of the Store

A store lists under each key the value that is found there (`mem_entries_iff`), and it lists its
keys in ascending order, so a store is determined by what is found in it (`ext_get?`). Writing the
same bindings makes stores agree where they agreed before (`get?_bindAll_congr`), and it leaves
nothing in them but what was there and what was written (`get?_bindAll_eq_some`). Where no two
bindings disagree about a key it matters only which of them are written, and neither in what order
nor how often (`bindAll_eq_of_mem_iff`).
-/

namespace SecondFactor.Store

/-- An entry of a store is what is found under its key. -/
theorem mem_entries_iff {store : Store} {key value : Bytes} :
    (key, value) ∈ store.entries ↔ store.get? key = some value := by
  obtain ⟨entries, hascending⟩ := store
  change (key, value) ∈ entries ↔ entries.lookup key = some value
  induction entries with
  | nil => simp
  | cons head rest ih =>
    obtain ⟨key', value'⟩ := head
    obtain ⟨hhead, hrest⟩ := List.pairwise_cons.1 hascending
    rw [lookup_entry, List.mem_cons, ih hrest]
    by_cases heq : key = key'
    · -- The keys behind the first one are greater, so it does not stand among them.
      subst heq
      rw [if_pos rfl]
      refine ⟨?_, fun h => .inl (by rw [Option.some.inj h])⟩
      rintro (h | h)
      · rw [(Prod.mk.inj h).2]
      · exact absurd (hhead _ ((ih hrest).2 h)) (List.lt_irrefl key)
    · rw [if_neg heq]
      exact ⟨fun h => h.resolve_left fun h => heq (Prod.mk.inj h).1, .inr⟩

/-- Stores in which the same is found are equal. -/
theorem ext_get? {store other : Store} (h : ∀ key, store.get? key = other.get? key) :
    store = other := by
  have : Std.Irrefl fun a b : Bytes × Bytes => a.1 < b.1 := ⟨fun a => List.lt_irrefl a.1⟩
  have : Std.Antisymm fun a b : Bytes × Bytes => a.1 < b.1 :=
    ⟨fun a b hab hba => absurd (List.lt_trans hab hba) (List.lt_irrefl a.1)⟩
  -- An ascending list is determined by what stands in it.
  apply Store.ext
  apply store.ascending.eq_of_mem_iff other.ascending
  rintro ⟨key, value⟩
  rw [mem_entries_iff, mem_entries_iff, h]

/-- Under a key that reads alike in two stores the same is found after the same writes. -/
theorem get?_bindAll_congr {store other : Store} (bindings : List Binding) {key : Bytes}
    (h : store.get? key = other.get? key) :
    (store.bindAll bindings).get? key = (other.bindAll bindings).get? key := by
  induction bindings generalizing store other with
  | nil => exact h
  | cons binding rest ih =>
    refine ih ?_
    by_cases hkey : binding.identity.storeKey = key
    · rw [← hkey, get?_bind_self, get?_bind_self]
    · rw [get?_bind_of_ne _ hkey, get?_bind_of_ne _ hkey, h]

/-- What is found after writes was there before, or it is the key of a binding that was written. -/
theorem get?_bindAll_eq_some {contents : Store} (bindings : List Binding) {key value : Bytes}
    (h : (contents.bindAll bindings).get? key = some value) :
    contents.get? key = some value ∨
      ∃ binding ∈ bindings, binding.identity.storeKey = key ∧ binding.publicKey = value := by
  induction bindings generalizing contents with
  | nil => exact .inl h
  | cons binding rest ih =>
    rcases ih h with hbefore | ⟨other, hother, hwritten⟩
    · by_cases hkey : binding.identity.storeKey = key
      · rw [← hkey, get?_bind_self] at hbefore
        exact .inr ⟨binding, List.mem_cons_self, hkey, Option.some.inj hbefore⟩
      · rw [get?_bind_of_ne _ hkey] at hbefore
        exact .inl hbefore
    · exact .inr ⟨other, List.mem_cons_of_mem _ hother, hwritten⟩

/-! ## Bindings that do not disagree -/

/-- No two of the bindings give different keys to one identity. -/
def Compatible (bindings : List Binding) : Prop :=
  ∀ x ∈ bindings, ∀ y ∈ bindings, x.identity = y.identity → x = y

/-- Bindings of different identities do not disagree. -/
theorem compatible_of_nodup {bindings : List Binding}
    (h : (bindings.map Binding.identity).Nodup) : Compatible bindings :=
  fun _ hx _ hy heq => List.inj_on_of_nodup_map h hx hy heq

theorem Compatible.subset {bindings some : List Binding} (h : Compatible bindings)
    (hsome : some ⊆ bindings) : Compatible some :=
  fun x hx y hy heq => h x (hsome hx) y (hsome hy) heq

theorem bindAll_append (contents : Store) (first second : List Binding) :
    contents.bindAll (first ++ second) = (contents.bindAll first).bindAll second :=
  List.foldl_append

/-- Under each key there is after writes what was there before or what was written. -/
theorem get?_bindAll_cases (contents : Store) (bindings : List Binding) (key : Bytes) :
    (contents.bindAll bindings).get? key = contents.get? key ∨
      ∃ binding ∈ bindings, binding.identity.storeKey = key ∧
        (contents.bindAll bindings).get? key = some binding.publicKey := by
  by_cases hkey : ∃ binding ∈ bindings, binding.identity.storeKey = key
  · obtain ⟨binding, hmem, hkey⟩ := hkey
    cases hafter : (contents.bindAll bindings).get? key with
    | none =>
      -- Nothing is there after the writes, so nothing was there before them.
      left
      cases hbefore : contents.get? key with
      | none => rfl
      | some value =>
        have hsome := isSome_get?_bindAll bindings (Option.isSome_of_eq_some hbefore)
        simp [hafter] at hsome
    | some value =>
      rcases get?_bindAll_eq_some bindings hafter with hbefore | ⟨other, hother, hkey, rfl⟩
      · exact .inl hbefore.symm
      · exact .inr ⟨other, hother, hkey, rfl⟩
  · left
    apply get?_bindAll_of_forall_ne
    intro binding hmem heq
    exact hkey ⟨binding, hmem, heq⟩

/-- Of bindings that do not disagree each one is found after all were written. -/
theorem get?_bindAll_of_compatible (contents : Store) {bindings : List Binding} {binding : Binding}
    (hcompatible : Compatible bindings) (h : binding ∈ bindings) :
    (contents.bindAll bindings).get? binding.identity.storeKey = some binding.publicKey := by
  induction bindings generalizing contents with
  | nil => cases h
  | cons head rest ih =>
    rw [bindAll_cons]
    by_cases hrest : binding ∈ rest
    · exact ih _ (hcompatible.subset (List.subset_cons_self head rest)) hrest
    · -- No binding that comes later is of the same identity, or it would be the same one.
      obtain rfl := (List.mem_cons.1 h).resolve_right hrest
      rw [get?_bindAll_of_forall_ne, get?_bind_self]
      intro other hother heq
      have hsame := hcompatible other (List.mem_cons_of_mem _ hother) _ List.mem_cons_self
        (Identity.storeKey_injective heq)
      exact hrest (hsame ▸ hother)

/-- Bindings that do not disagree may be written in any order and any number of times. -/
theorem bindAll_eq_of_mem_iff (contents : Store) {bindings others : List Binding}
    (hcompatible : Compatible bindings) (h : ∀ binding, binding ∈ bindings ↔ binding ∈ others) :
    contents.bindAll bindings = contents.bindAll others := by
  have hothers : Compatible others := hcompatible.subset fun binding => (h binding).2
  refine ext_get? fun key => ?_
  by_cases hkey : ∃ binding ∈ bindings, binding.identity.storeKey = key
  · obtain ⟨binding, hmem, rfl⟩ := hkey
    rw [get?_bindAll_of_compatible contents hcompatible hmem,
      get?_bindAll_of_compatible contents hothers ((h binding).1 hmem)]
  · -- Neither list has a binding for the key.
    have hne : ∀ binding ∈ bindings, binding.identity.storeKey ≠ key :=
      fun binding hmem heq => hkey ⟨binding, hmem, heq⟩
    rw [get?_bindAll_of_forall_ne contents hne,
      get?_bindAll_of_forall_ne contents fun binding hmem => hne binding ((h binding).2 hmem)]

/-- What is written anyway need not be written first. -/
theorem bindAll_append_eq_right (contents : Store) {more bindings : List Binding}
    (hcompatible : Compatible bindings) (h : more ⊆ bindings) :
    contents.bindAll (more ++ bindings) = contents.bindAll bindings := by
  symm
  refine bindAll_eq_of_mem_iff contents hcompatible fun binding => ?_
  rw [List.mem_append, or_iff_right_of_imp fun hmem => h hmem]

/-- What has been written need not be written again. -/
theorem bindAll_append_eq_left (contents : Store) {more bindings : List Binding}
    (hcompatible : Compatible bindings) (h : more ⊆ bindings) :
    contents.bindAll (bindings ++ more) = contents.bindAll bindings := by
  symm
  refine bindAll_eq_of_mem_iff contents hcompatible fun binding => ?_
  rw [List.mem_append, or_iff_left_of_imp fun hmem => h hmem]

/-- Writing more bindings first makes a difference exactly if there is one among them that is not
written anyway. -/
theorem bindAll_append_eq_iff {contents : Store} {more bindings : List Binding}
    (hcompatible : Compatible (more ++ bindings))
    (hnone : ∀ binding ∈ more, contents.get? binding.identity.storeKey = none) :
    contents.bindAll (more ++ bindings) = contents.bindAll bindings ↔ more ⊆ bindings := by
  constructor
  · intro heq binding hmem
    -- What was written first is found in both stores, so there it must have been written, too.
    have hfound := get?_bindAll_of_compatible contents hcompatible (List.mem_append_left _ hmem)
    rw [heq] at hfound
    rcases get?_bindAll_eq_some bindings hfound with hbefore | ⟨other, hother, hkey, -⟩
    · rw [hnone binding hmem] at hbefore
      cases hbefore
    · have hsame := hcompatible other (List.mem_append_right _ hother) binding
        (List.mem_append_left _ hmem) (Identity.storeKey_injective hkey)
      exact hsame ▸ hother
  · intro hsubset
    apply bindAll_append_eq_right contents _ hsubset
    exact hcompatible.subset (List.subset_append_right more bindings)

/-- The store has no binding of an identity. -/
def lacks (contents : Store) (identity : Identity) : Bool :=
  (contents.get? identity.storeKey).isNone

theorem lacks_iff {contents : Store} {identity : Identity} :
    contents.lacks identity = true ↔ contents.get? identity.storeKey = none :=
  Option.isNone_iff_eq_none

/-- Of bindings that a store lacked at first it is enough to write those that it still lacks. -/
theorem bindAll_filter_lacks {contents : Store} {known more : List Binding}
    (hcompatible : Compatible (known ++ more))
    (hnone : ∀ binding ∈ more, contents.get? binding.identity.storeKey = none) :
    (contents.bindAll known).bindAll
        (more.filter fun binding => (contents.bindAll known).lacks binding.identity) =
      contents.bindAll (known ++ more) := by
  rw [← bindAll_append]
  symm
  refine bindAll_eq_of_mem_iff contents hcompatible fun binding => ?_
  simp only [List.mem_append, List.mem_filter, lacks_iff]
  refine ⟨?_, Or.imp_right And.left⟩
  rintro (hmem | hmem)
  · exact .inl hmem
  · rcases contents.get?_bindAll_cases known binding.identity.storeKey with
      hsame | ⟨other, hother, hkey, -⟩
    · exact .inr ⟨hmem, hsame.trans (hnone binding hmem)⟩
    · -- What is there instead is a binding of the same identity, so it is the same binding.
      left
      have hsame := hcompatible other (List.mem_append_left _ hother) binding
        (List.mem_append_right _ hmem) (Identity.storeKey_injective hkey)
      exact hsame ▸ hother

end SecondFactor.Store
