import Mathlib.Data.List.Dedup
import Mathlib.Data.List.Sort
import SecondFactor.Proofs.Hex
import SecondFactor.Proofs.Store.Writes

/-!
# The Order of Identities

Identities come in one order, whether they are compared as such, by their store keys or by their
written forms. For the written forms this rests on hexadecimal text, which is ordered as the bytes
that it stands for (`Hex.encode_lt_encode_iff`). A store that holds bindings therefore lists them in
the order of their identities, accounts before validators.

## Main results

* `Identity.storeKey_lt_storeKey_iff`, `Identity.text_lt_text_iff`: the three orders are one;
* `Store.keys_eq_map_sort`: a store lists the keys of identities as the identities sort;
* `Identity.orders_agree`: this together, for a store to which bindings were written.
-/

namespace SecondFactor

/-! ## Hexadecimal text -/

namespace Hex

/-- Digits are ordered as their values. -/
theorem digit_lt_digit_iff {m n : Nat} (hm : m < 16) (hn : n < 16) :
    digit m < digit n ↔ m < n := by
  rw [UInt8.lt_iff_toNat_lt, toNat_digit hm, toNat_digit hn]
  split <;> split <;> omega

/-- Different values have different digits. -/
theorem digit_inj {m n : Nat} (hm : m < 16) (hn : n < 16) : digit m = digit n ↔ m = n := by
  rw [← UInt8.toNat_inj, toNat_digit hm, toNat_digit hn]
  split <;> split <;> omega

/-- Hexadecimal digits are ordered as the bytes that they denote. -/
theorem encode_lt_encode_iff {a b : Bytes} : encode a < encode b ↔ a < b := by
  -- As with bytes, a proper beginning comes first.
  induction a generalizing b with
  | nil => cases b <;> simp [encode]
  | cons c a ih =>
    cases b with
    | nil => simp [encode]
    | cons d b =>
      have hc : c.toNat < 256 := c.toNat_lt
      have hd : d.toNat < 256 := d.toNat_lt
      -- Of two bytes the high halves decide, and where they are the same the low ones.
      have hlt : c.toNat < d.toNat ↔ c.toNat / 16 < d.toNat / 16 ∨
          c.toNat / 16 = d.toNat / 16 ∧ c.toNat % 16 < d.toNat % 16 := by
        omega
      have heq : c.toNat = d.toNat ↔
          c.toNat / 16 = d.toNat / 16 ∧ c.toNat % 16 = d.toNat % 16 := by
        omega
      rw [encode, encode, List.cons_lt_cons_iff, List.cons_lt_cons_iff, List.cons_lt_cons_iff, ih,
        digit_lt_digit_iff (by omega) (by omega), digit_lt_digit_iff (by omega) (by omega),
        digit_inj (by omega) (by omega), digit_inj (by omega) (by omega),
        UInt8.lt_iff_toNat_lt, ← UInt8.toNat_inj, hlt, heq]
      rw [and_or_left, or_assoc, and_assoc]

end Hex

/-! ## Text -/

namespace Text

/-- Characters are ordered as their codes. -/
theorem ofUInt8_lt_ofUInt8_iff {c d : UInt8} : Char.ofUInt8 c < Char.ofUInt8 d ↔ c < d := by
  rw [Char.lt_def, UInt32.lt_iff_toNat_lt, UInt8.lt_iff_toNat_lt]
  -- A code of 8 bits is the same number with 32 bits.
  rfl

/-- Different codes are those of different characters. -/
theorem ofUInt8_inj {c d : UInt8} : Char.ofUInt8 c = Char.ofUInt8 d ↔ c = d := by
  rw [← Char.toNat_inj, ← UInt8.toNat_inj]
  rfl

/-- Texts are ordered as the codes of their characters. -/
theorem map_ofUInt8_lt_iff {a b : Bytes} :
    a.map Char.ofUInt8 < b.map Char.ofUInt8 ↔ a < b := by
  induction a generalizing b with
  | nil => cases b <;> simp
  | cons c a ih =>
    cases b with
    | nil => simp
    | cons d b =>
      rw [List.map_cons, List.map_cons, List.cons_lt_cons_iff, List.cons_lt_cons_iff, ih,
        ofUInt8_lt_ofUInt8_iff, ofUInt8_inj]

/-- Texts that start alike are ordered as their ends. -/
theorem append_lt_append_iff {s t u : String} : s ++ t < s ++ u ↔ t < u := by
  rw [String.lt_iff, String.toList_append, String.toList_append, String.lt_iff]
  -- The common start is taken off letter by letter.
  induction s.toList with
  | nil => rfl
  | cons c s ih => simpa using ih

end Text

/-- Hexadecimal texts are ordered as the bytes that they denote. -/
theorem Hex.text_lt_text_iff {a b : Bytes} : text a < text b ↔ a < b := by
  rw [String.lt_iff, text, text, String.toList_ofList, String.toList_ofList,
    Text.map_ofUInt8_lt_iff, encode_lt_encode_iff]

/-! ## Identities -/

namespace Identity

/-- Store keys are ordered as the identities. -/
theorem storeKey_lt_storeKey_iff {x y : Identity} : x.storeKey < y.storeKey ↔ x < y := by
  rw [storeKey, storeKey, List.cons_lt_cons_iff]
  -- The first byte decides between the kinds, and within a kind it is the same.
  cases x <;> cases y
  case account.account a b =>
    show _ ↔ a.bytes < b.bytes
    simp [namespaceByte, address]
  case validator.validator a b =>
    show _ ↔ a.bytes < b.bytes
    simp [namespaceByte, address]
  case account.validator a b => exact iff_of_true (by simp [namespaceByte]) trivial
  case validator.account a b => exact iff_of_false (by simp [namespaceByte]) id

/-- Different identities have different store keys. -/
theorem storeKey_inj {x y : Identity} : x.storeKey = y.storeKey ↔ x = y :=
  ⟨storeKey_injective, congrArg storeKey⟩

/-- The written form of an account comes before that of a validator. -/
theorem text_account_lt (a b : Address) : (account a).text < (validator b).text := by
  rw [text, text, String.lt_iff, String.toList_append, String.toList_append]
  -- They differ in their first letters.
  simp [List.cons_lt_cons_iff]

/-- Written forms are ordered as the identities. -/
theorem text_lt_text_iff {x y : Identity} : x.text < y.text ↔ x < y := by
  cases x <;> cases y
  case account.account a b => exact Text.append_lt_append_iff.trans Hex.text_lt_text_iff
  case validator.validator a b => exact Text.append_lt_append_iff.trans Hex.text_lt_text_iff
  case account.validator a b => exact iff_of_true (text_account_lt a b) trivial
  case validator.account a b => exact iff_of_false (String.lt_asymm (text_account_lt b a)) id

/-! ## Sorting -/

theorem perm_sort (identities : List Identity) : (sort identities).Perm identities :=
  List.mergeSort_perm identities _

/-- No identity comes after a greater one. -/
theorem pairwise_sort (identities : List Identity) :
    (sort identities).Pairwise fun x y => ¬y < x := by
  -- The order of byte strings serves for that of identities.
  have hle (x y : Identity) : (!decide (y < x)) = true ↔ x.storeKey ≤ y.storeKey := by
    simp [← storeKey_lt_storeKey_iff]
  refine (List.pairwise_mergeSort ?_ ?_ identities).imp ?_
  · intro x y z hxy hyz
    rw [hle] at hxy hyz ⊢
    exact List.le_trans hxy hyz
  · intro x y
    rw [Bool.or_eq_true, hle, hle]
    exact List.le_total _ _
  · intro x y h
    simpa using h

/-- The store keys of different identities ascend when the identities are sorted. -/
theorem pairwise_storeKey_sort {identities : List Identity} (h : identities.Nodup) :
    ((sort identities).map storeKey).Pairwise (· < ·) := by
  -- Of two that differ the one that does not come after the other comes before it.
  have hnodup : (sort identities).Nodup := (perm_sort identities).nodup_iff.2 h
  refine List.pairwise_map.2 (((pairwise_sort identities).and hnodup).imp ?_)
  rintro x y ⟨hle, hne⟩
  rw [← storeKey_lt_storeKey_iff] at hle
  exact Store.lt_of_not_lt_of_ne hle fun heq => hne (storeKey_injective heq).symm

/-- Where no identity comes after a greater one the accounts come before the validators. -/
theorem exists_eq_append {identities : List Identity}
    (h : identities.Pairwise fun x y => ¬y < x) :
    ∃ accounts validators : List Address,
      identities = accounts.map account ++ validators.map validator := by
  induction identities with
  | nil => exact ⟨[], [], rfl⟩
  | cons head rest ih =>
    obtain ⟨hhead, hrest⟩ := List.pairwise_cons.1 h
    obtain ⟨accounts, validators, rfl⟩ := ih hrest
    cases head with
    | account a => exact ⟨a :: accounts, validators, rfl⟩
    | validator v =>
      -- No account comes after a validator.
      cases accounts with
      | nil => exact ⟨[], v :: validators, rfl⟩
      | cons a accounts => exact absurd trivial (hhead (account a) (by simp))

end Identity

/-- A store that has the keys of some identities and no others lists them as the identities sort. -/
theorem Store.keys_eq_map_sort {store : Store} {identities : List Identity}
    (hnodup : identities.Nodup)
    (h : ∀ key, key ∈ store.keys ↔ key ∈ identities.map Identity.storeKey) :
    store.keys = (Identity.sort identities).map Identity.storeKey := by
  -- There is one ascending list of the same keys.
  apply store.pairwise_keys.eq_of_mem_iff (Identity.pairwise_storeKey_sort hnodup)
  intro key
  rw [h, ((Identity.perm_sort identities).map Identity.storeKey).mem_iff]

/-- Store keys and written forms are ordered as the identities that they stand for, and no two
identities have the same store key. In whatever order and however often bindings are written to an
empty store, it then lists the identities that are bound, each once and in ascending order, and this
is the accounts first and then the validators. -/
theorem Identity.orders_agree :
    (∀ x y : Identity,
      (x.storeKey = y.storeKey ↔ x = y) ∧
      (x < y ↔ x.storeKey < y.storeKey) ∧
      (x.storeKey < y.storeKey ↔ x.text < y.text)) ∧
    ∀ bindings : List Binding, ∃ accounts validators : List Address,
      sort (bindings.map Binding.identity).dedup =
        accounts.map account ++ validators.map validator ∧
      (Store.empty.bindAll bindings).keys =
        (sort (bindings.map Binding.identity).dedup).map storeKey := by
  constructor
  · intro x y
    refine ⟨storeKey_inj, storeKey_lt_storeKey_iff.symm, ?_⟩
    rw [storeKey_lt_storeKey_iff, text_lt_text_iff]
  · intro bindings
    obtain ⟨accounts, validators, hsort⟩ := exists_eq_append
      (pairwise_sort (bindings.map Binding.identity).dedup)
    refine ⟨accounts, validators, hsort, Store.keys_eq_map_sort (List.nodup_dedup _) fun key => ?_⟩
    -- The keys that were written are the store keys of the identities in the bindings.
    rw [Store.bindAll_eq_setAll, Store.mem_keys_setAll_empty]
    simp

end SecondFactor
