import SecondFactor.Voting.Check
import SecondFactor.Proofs.Bindings
import SecondFactor.Proofs.Signature.Acceptance

/-!
# Laws of Checked Signatures

A signature of a validator is held against the key that is bound (`checkSignature_eq_bound_iff`).
Where nothing is bound it is right if a key can be recovered from it (`checkSignature_of_unbound`,
`checkSignature_eq_recovered_iff`). The check reads one binding and nothing else of the store, and a
signature stays right when the key that it has taught is bound (`checkSignature_later`).
-/

namespace SecondFactor.Voting

/-- Checking with a key succeeds only with the outcome that is given. -/
theorem verifyWith_eq_ok_iff {key signature : Bytes} {hash : Hash} {check result : Check} :
    verifyWith key hash signature check = .ok result ↔
      Signature.verify key hash (Signature.stripRecoveryByte signature) = true ∧
        check = result := by
  unfold verifyWith
  split
  · next h => simp [h]
  · next h => simp [h]

/-- Checking with a key never fails for want of the store. -/
theorem verifyWith_ne_store {key signature : Bytes} {hash : Hash} {check : Check}
    {e : StoreError} : verifyWith key hash signature check ≠ .error (.store e) := by
  unfold verifyWith
  split <;> simp

variable {store : HostStore} {validator : Address} {hash : Hash} {signature : Bytes}

/-- A signature is held against a bound key exactly where one is bound, and it is right if it
verifies with this key. -/
theorem checkSignature_eq_bound_iff :
    checkSignature store validator hash signature = .ok .bound ↔
      ∃ key, Bindings.get store (.validator validator) = .ok (some key) ∧
        Signature.verify key hash (Signature.stripRecoveryByte signature) = true := by
  unfold checkSignature
  constructor
  · intro h
    split at h
    · cases h
    · next key hget => exact ⟨key, hget, (verifyWith_eq_ok_iff.1 h).1⟩
    · -- A signature that teaches a key is not held against a bound one.
      split at h
      · obtain ⟨-, hcheck⟩ := verifyWith_eq_ok_iff.1 h
        cases hcheck
      · cases h
  · rintro ⟨key, hget, hverify⟩
    rw [hget]
    exact verifyWith_eq_ok_iff.2 ⟨hverify, rfl⟩

/-- Where nothing is bound the recovery decides: a signature from which a key is recovered verifies
with this key. -/
theorem checkSignature_of_unbound (hget : Bindings.get store (.validator validator) = .ok none) :
    checkSignature store validator hash signature =
      match Signature.recover hash signature with
      | .ok key => .ok (.recovered key)
      | .error e => .error (.recoveryFailed e) := by
  unfold checkSignature
  rw [hget]
  cases hrecover : Signature.recover hash signature with
  | error e => rfl
  | ok key =>
    exact verifyWith_eq_ok_iff.2 ⟨Signature.verify_stripRecoveryByte hrecover, rfl⟩

/-- A key is taken from a signature exactly where the store was read, nothing is bound, and the key
is recovered from the signature. -/
theorem checkSignature_eq_recovered_iff {key : Bytes} :
    checkSignature store validator hash signature = .ok (.recovered key) ↔
      Bindings.get store (.validator validator) = .ok none ∧
        Signature.recover hash signature = .ok key := by
  constructor
  · intro h
    unfold checkSignature at h
    split at h
    · cases h
    · -- A signature that is held against a bound key teaches no key.
      obtain ⟨-, hcheck⟩ := verifyWith_eq_ok_iff.1 h
      cases hcheck
    · next hget =>
      split at h
      · next hrecover =>
        obtain ⟨-, hcheck⟩ := verifyWith_eq_ok_iff.1 h
        cases hcheck
        exact ⟨hget, hrecover⟩
      · cases h
  · rintro ⟨hget, hrecover⟩
    rw [checkSignature_of_unbound hget, hrecover]

/-- A signature from which a key is recovered is right if no other key is bound. -/
theorem exists_checkSignature {key : Bytes}
    (hget : Bindings.get store (.validator validator) = .ok none ∨
      Bindings.get store (.validator validator) = .ok (some key))
    (hrecover : Signature.recover hash signature = .ok key) :
    ∃ check, checkSignature store validator hash signature = .ok check := by
  rcases hget with hget | hget
  · exact ⟨.recovered key, checkSignature_eq_recovered_iff.2 ⟨hget, hrecover⟩⟩
  · have hverify := Signature.verify_stripRecoveryByte hrecover
    exact ⟨.bound, checkSignature_eq_bound_iff.2 ⟨key, hget, hverify⟩⟩

/-- A check fails for want of the store only if the binding cannot be read. -/
theorem checkSignature_ne_store {value : Option Bytes} {e : StoreError}
    (hget : Bindings.get store (.validator validator) = .ok value) :
    checkSignature store validator hash signature ≠ .error (.store e) := by
  unfold checkSignature
  rw [hget]
  cases value with
  | none =>
    cases Signature.recover hash signature with
    | error reason => simp
    | ok key => exact verifyWith_ne_store
  | some key => exact verifyWith_ne_store

/-- The check reads the binding of the validator and nothing else. -/
theorem checkSignature_congr {other : HostStore}
    (hget : Bindings.get store (.validator validator) = Bindings.get other (.validator validator)) :
    checkSignature store validator hash signature =
      checkSignature other validator hash signature := by
  unfold checkSignature
  rw [hget]

/-- A signature that was right stays right while the binding of the validator stays as it is, and
also when the key is bound that was recovered from it. -/
theorem checkSignature_later {contents later : Store} {check : Check}
    (h : checkSignature (.reliable contents) validator hash signature = .ok check)
    (hlater : later.get? (Identity.validator validator).storeKey =
        contents.get? (Identity.validator validator).storeKey ∨
      ∃ key, check = .recovered key ∧
        later.get? (Identity.validator validator).storeKey = some key) :
    checkSignature (.reliable later) validator hash signature =
      .ok (if later.get? (Identity.validator validator).storeKey = none then check
        else .bound) := by
  rcases hlater with hsame | ⟨key, rfl, hbound⟩
  · have hcongr : checkSignature (.reliable later) validator hash signature = .ok check := by
      rw [← h]
      apply checkSignature_congr
      rw [Bindings.get_reliable, Bindings.get_reliable, hsame]
    cases check with
    | bound => rw [hcongr, ite_self]
    | recovered key =>
      -- A key has been recovered, so there was no binding.
      obtain ⟨hget, -⟩ := checkSignature_eq_recovered_iff.1 hcongr
      have hnone : later.get? (Identity.validator validator).storeKey = none :=
        (Bindings.get_eq_ok_iff.1 hget).2
      rw [hcongr, if_pos hnone]
  · -- The signature verifies with the recovered key, which now is the bound one.
    obtain ⟨-, hrecover⟩ := checkSignature_eq_recovered_iff.1 h
    have hverify := Signature.verify_stripRecoveryByte hrecover
    rw [if_neg (by simp [hbound])]
    refine checkSignature_eq_bound_iff.2 ⟨key, ?_, hverify⟩
    rw [Bindings.get_reliable, hbound]

end SecondFactor.Voting
