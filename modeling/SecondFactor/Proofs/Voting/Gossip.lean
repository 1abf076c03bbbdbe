import SecondFactor.Voting.Gossip
import SecondFactor.Proofs.Json.Records
import SecondFactor.Proofs.Voting.Check

/-!
# Laws of Extending Votes

What a validator answers when it is asked for the extension of its vote, and the verdict on the
extensions of others, at heights with extensions and at those without.
-/

namespace SecondFactor

/-- Votes carry extensions from the height on that is set, if one is. -/
theorem Config.extensionsEnabled_iff {config : Config} {height : UInt64} :
    config.extensionsEnabled height = true ↔
      0 < config.extensionsEnableHeight ∧ config.extensionsEnableHeight ≤ height := by
  simp [extensionsEnabled]

namespace Voting

variable {config : Config} {store : HostStore} {height : UInt64} {hash : Hash}
  {validator : Address}

/-- At a height with extensions a vote is extended with the signature over the block's hash. -/
theorem value_extend {key : SecretKey} {signature : FixedBytes 65} (request : ExtendRequest)
    (hheight : config.extensionsEnabled request.height = true)
    (hsignature : key.sign? request.hash = some signature) :
    (extend config (some key) request).run.value =
      .ok ⟨VoteExtension.encode ⟨signature.bytes⟩⟩ := by
  unfold extend
  -- Signing is taken as an unknown function, since it cannot be evaluated on variables.
  obtain ⟨sign, hsign⟩ : ∃ sign : SecretKey → Hash → Option (FixedBytes 65),
      ∀ key hash, key.sign? hash = sign key hash := ⟨_, fun _ _ => rfl⟩
  rw [hsign] at hsignature
  simp -iota only [hsign]
  rw [if_pos hheight]
  dsimp only
  rw [hsignature]
  rfl

/-- At a height without extensions the vote is extended with nothing, with a key or without. -/
theorem value_extend_disabled {request : ExtendRequest}
    (hheight : config.extensionsEnabled request.height = false) (key : Option SecretKey) :
    (extend config key request).run.value = .ok ⟨[]⟩ := by
  unfold extend
  rw [if_neg (by rw [hheight]; exact Bool.false_ne_true)]
  rfl

/-- The verdict on an extension, without the event. -/
theorem value_verify (config : Config) (store : HostStore) (request : CheckRequest) :
    (verify config store request).value =
      if request.extension = [] then
        if config.extensionsEnabled request.height then .reject else .accept
      else
        match VoteExtension.decode request.extension with
        | .error _ => .reject
        | .ok extension =>
          match checkSignature store request.validator request.hash extension.signature with
          | .ok _ => .accept
          | .error _ => .reject := by
  unfold verify
  split
  · split <;> rfl
  · cases VoteExtension.decode request.extension with
    | error e => rfl
    | ok extension =>
      dsimp only
      cases checkSignature store request.validator request.hash extension.signature <;> rfl

/-- Where nothing is bound an extension is rejected from whose signature no key is recovered. -/
theorem value_verify_of_recover_error {signature : Bytes} {fault : Signature.RecoveryFault}
    (hsignature : signature ≠ [])
    (hunbound : Bindings.get store (.validator validator) = .ok none)
    (hrecover : Signature.recover hash signature = .error fault) :
    (verify config store ⟨height, hash, validator, VoteExtension.encode ⟨signature⟩⟩).value =
      .reject := by
  have hextension : VoteExtension.encode ⟨signature⟩ ≠ [] := Wire.write_ne_nil _
  rw [value_verify, if_neg hextension]
  dsimp only
  rw [VoteExtension.decode_encode hsignature]
  dsimp only
  rw [checkSignature_of_unbound hunbound, hrecover]

end Voting

end SecondFactor
