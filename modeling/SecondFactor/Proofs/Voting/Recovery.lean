import SecondFactor.Proofs.Proposal.Decision
import SecondFactor.Proofs.Registration

/-!
# Keys Recovered from First Signatures

A validator that has no key bound is taken at its first word: the key is recovered from its
signature and bound. This is sound because the same signature verifies with the recovered key, at
once and also when it is checked against the binding later on. The main statement is
`recovered_key_verifies`.
-/

namespace SecondFactor.Voting

open Proposal Signature

/-- A recovered key is in the uncompressed form, and it verifies the signature that it was recovered
from. The check of a signature therefore never finds that the key recovered from it does not verify
it, and once the key is bound, by an unconditional write or under either policy, the same check
holds the signature against the binding and finds it right. -/
theorem recovered_key_verifies (hash : Hash) (signature : Bytes) :
    (∀ key, recover hash signature = .ok key →
      key.length = 65 ∧ key.head? = some 0x04 ∧
        Signature.verify key hash (signature.take 64) = true) ∧
    ∀ (contents : Store) (validator : Address),
      contents.get? (Identity.validator validator).storeKey = none →
      checkSignature (.reliable contents) validator hash signature ≠
          .error .verificationFailed ∧
        ∀ key, checkSignature (.reliable contents) validator hash signature =
            .ok (.recovered key) →
          let binding : Binding := ⟨.validator validator, key⟩
          ∃ after, ((Bindings.set binding).run.run (.reliable contents)).value =
              (.ok (), .reliable after) ∧
            (∀ policy, ((Bindings.bind binding policy).run.run (.reliable contents)).value =
              (.ok .created, .reliable after)) ∧
            checkSignature (.reliable after) validator hash signature = .ok .bound := by
  constructor
  · intro key hrecover
    have hverify := verify_of_recover hrecover
    obtain ⟨r, s, v, point, -, rfl⟩ := recover_eq_ok_iff.1 hrecover
    exact ⟨point.length_encode, rfl, hverify⟩
  · intro contents validator hunbound
    have hget : Bindings.get (.reliable contents) (.validator validator) = .ok none := by
      rw [Bindings.get_reliable, hunbound]
    constructor
    · rw [checkSignature_of_unbound hget]
      cases recover hash signature <;> simp
    · intro key hcheck binding
      have hbound := contents.get?_bind_self binding
      refine ⟨contents.bind binding, Bindings.value_set binding _, fun policy => ?_, ?_⟩
      · rw [Bindings.value_bind_reliable, hunbound]
        rfl
      · -- The binding that is there now is the key that was recovered.
        have hsome : (contents.bind binding).get? (Identity.validator validator).storeKey ≠ none :=
          fun hnone => Option.some_ne_none key (hbound.symm.trans hnone)
        rw [checkSignature_later hcheck (.inr ⟨key, rfl, hbound⟩), if_neg hsome]

/-- The key of a first vote is recovered from its signature, which verifies with it and is found
right again after the key has been bound. -/
theorem first_vote_recovered :
    let binding : Binding := ⟨.validator firstVoter, votedKey⟩
    recover votedHash votedSignature = .ok votedKey ∧
      Signature.verify votedKey votedHash (votedSignature.take 64) = true ∧
      checkSignature (.reliable .empty) firstVoter votedHash votedSignature =
        .ok (.recovered votedKey) ∧
      ∃ after, ((Bindings.set binding).run.run (.reliable .empty)).value =
          (.ok (), .reliable after) ∧
        checkSignature (.reliable after) firstVoter votedHash votedSignature = .ok .bound := by
  intro binding
  obtain ⟨hkey, hchecks⟩ := recovered_key_verifies votedHash votedSignature
  obtain ⟨-, -, hverify⟩ := hkey votedKey recover_votedSignature
  obtain ⟨-, hbinds⟩ := hchecks .empty firstVoter (Store.get?_empty _)
  have hcheck := (supports_firstVote (Bindings.get_reliable .empty (.validator firstVoter))).check_eq
  obtain ⟨after, hset, -, hbound⟩ := hbinds votedKey hcheck
  exact ⟨recover_votedSignature, hverify, hcheck, after, hset, hbound⟩

end SecondFactor.Voting
