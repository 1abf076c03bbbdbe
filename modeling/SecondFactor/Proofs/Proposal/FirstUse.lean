import SecondFactor.Proofs.Proposal.Prepare
import SecondFactor.Proofs.Signature.Ecdsa
import SecondFactor.Proofs.Signature.Nonce
import SecondFactor.Proofs.Voting.Gossip

/-!
# Trust on First Use

What becomes of the votes of honest validators, from the request for their extensions to the
bindings that a block of the next height writes. The extension of an honest vote is right, whether
its validator has a key bound or not (`HonestVote`, `exists_honestVote`), so all of them count
(`exists_counted`), the proposer aggregates all of them, and replicas that get the block bind the
keys of those that had none (`Electorate.exists_learned`). The main statement is
`first_use_learns_keys`.
-/

namespace SecondFactor.Proposal

/-- A validator with the key that it signs with. -/
structure Validator where
  /-- The address that it votes under. -/
  address : Address
  /-- The key that it signs with. -/
  key : SecretKey

/-- The vote of a validator, with what the validator answers when it is asked for the extension. -/
def Validator.vote (config : Config) (height : UInt64) (hash : Hash) (validator : Validator) :
    Vote where
  validator := validator.address
  extension :=
    match (Voting.extend config (some validator.key) ⟨height, hash⟩).run.value with
    | .ok reply => reply.extension
    | .error _ => []

/-- Validators that can learn each other's keys from their votes for a block: there are some, no
more than an aggregate may hold, each under an address of its own, each with its own key bound or
none, and each with a signature over the hash of the block. -/
structure Electorate (config : Config) (hash : Hash) (contents : Store)
    (validators : List Validator) : Prop where
  /-- There is a validator. -/
  ne_nil : validators ≠ []
  /-- There is room for all of them in an aggregate. -/
  length_le : validators.length ≤ config.maxAggregateEntries.toNat
  /-- Their addresses are different. -/
  nodup : (validators.map Validator.address).Nodup
  /-- No foreign key is bound to any of them. -/
  get?_eq : ∀ validator ∈ validators,
    contents.get? (Identity.validator validator.address).storeKey = none ∨
      contents.get? (Identity.validator validator.address).storeKey =
        some validator.key.publicKey
  /-- They can sign the hash. -/
  signs : ∀ validator ∈ validators, validator.key.Signs hash

variable {config : Config} {height : UInt64} {hash : Hash} {contents : Store}

/-! ## Honest votes -/

/-- The extension with which the vote of an honest validator counts. -/
structure HonestVote (config : Config) (height : UInt64) (hash : Hash) (contents : Store)
    (validator : Validator) (extension : ValidExtension) : Prop where
  /-- It is what the validator answers. -/
  extend_eq : (Voting.extend config (some validator.key) ⟨height, hash⟩).run.value =
    .ok ⟨(validator.vote config height hash).extension⟩
  /-- It is not empty. -/
  extension_ne : (validator.vote config height hash).extension ≠ []
  /-- It is right. -/
  supports : Supports (.reliable contents) hash (validator.vote config height hash) extension
  /-- The key of the validator is recovered from it. -/
  recover_eq : Signature.recover hash extension.signature = .ok validator.key.publicKey

/-- The vote of a validator counts if no foreign key is bound to it. -/
theorem exists_honestVote (hheight : config.extensionsEnabled height = true)
    {validator : Validator} (hsigns : validator.key.Signs hash)
    (hbound : contents.get? (Identity.validator validator.address).storeKey = none ∨
      contents.get? (Identity.validator validator.address).storeKey =
        some validator.key.publicKey) :
    ∃ extension, HonestVote config height hash contents validator extension := by
  obtain ⟨signature, hsign, hrecover⟩ := SecretKey.exists_sign? hsigns
  have hextend := Voting.value_extend ⟨height, hash⟩ hheight hsign
  have hvote : (validator.vote config height hash).extension =
      VoteExtension.encode ⟨signature.bytes⟩ := by
    rw [Validator.vote, hextend]
  have hne : signature.bytes ≠ [] := List.ne_nil_of_length_eq_add_one signature.length_eq
  have hget : Bindings.get (.reliable contents) (.validator validator.address) = .ok none ∨
      Bindings.get (.reliable contents) (.validator validator.address) =
        .ok (some validator.key.publicKey) := by
    rw [Bindings.get_reliable]
    exact hbound.imp (congrArg _) (congrArg _)
  obtain ⟨check, hcheck⟩ := Voting.exists_checkSignature hget hrecover
  refine ⟨⟨validator.address, signature.bytes, check⟩, ?_⟩
  exact {
    extend_eq := by rw [hvote, hextend]
    extension_ne := by rw [hvote]; exact Wire.write_ne_nil _
    supports := {
      validator_eq := rfl
      decode_eq := by rw [hvote]; exact VoteExtension.decode_encode hne
      check_eq := hcheck }
    recover_eq := hrecover }

/-- The extension of an honest vote is accepted when it is gossiped. -/
theorem HonestVote.verify_eq {validator : Validator} {extension : ValidExtension}
    (h : HonestVote config height hash contents validator extension) :
    (Voting.verify config (.reliable contents) ⟨height, hash, validator.address,
      (validator.vote config height hash).extension⟩).value = .accept := by
  have hcheck : Voting.checkSignature (.reliable contents) validator.address hash
      extension.signature = .ok extension.check := h.supports.check_eq
  rw [Voting.value_verify, if_neg h.extension_ne, h.supports.decode_eq]
  dsimp only
  rw [hcheck]

/-- All honest votes count, in their order. -/
theorem exists_counted {validators : List Validator} {seen : List Address}
    (hnodup : (validators.map Validator.address).Nodup)
    (hseen : ∀ validator ∈ validators, validator.address ∉ seen)
    (hhonest : ∀ validator ∈ validators, ∃ extension,
      HonestVote config height hash contents validator extension) :
    ∃ valid, Counted (.reliable contents) hash seen
        (validators.map (Validator.vote config height hash)) valid ∧
      List.Forall₂ (HonestVote config height hash contents) validators valid := by
  induction validators generalizing seen with
  | nil => exact ⟨[], .nil, .nil⟩
  | cons validator rest ih =>
    obtain ⟨hhead, hrest⟩ := List.nodup_cons.1 hnodup
    obtain ⟨hnew, hseen⟩ := List.forall_mem_cons.1 hseen
    obtain ⟨⟨extension, hvote⟩, hhonest⟩ := List.forall_mem_cons.1 hhonest
    -- The rest has other addresses than the validator that has now been seen as well.
    have hlater : ∀ other ∈ rest, other.address ∉ validator.address :: seen := by
      intro other hother hmem
      rcases List.mem_cons.1 hmem with heq | hmem
      · exact hhead (heq ▸ List.mem_map_of_mem hother)
      · exact hseen other hother hmem
    obtain ⟨valid, hcounted, hvotes⟩ := ih hrest hlater hhonest
    exact ⟨extension :: valid, .keep hvote.extension_ne hnew hvote.supports hcounted,
      .cons hvote hvotes⟩

/-- Each of the validators has its extension among those that count. -/
theorem exists_mem_of_honest {validators : List Validator} {valid : List ValidExtension}
    (h : List.Forall₂ (HonestVote config height hash contents) validators valid)
    {validator : Validator} (hmem : validator ∈ validators) :
    ∃ extension ∈ valid, HonestVote config height hash contents validator extension := by
  induction h with
  | nil => cases hmem
  | cons hvote _ ih =>
    rcases List.mem_cons.1 hmem with rfl | hrest
    · exact ⟨_, List.mem_cons_self, hvote⟩
    · obtain ⟨extension, hextension, hvote⟩ := ih hrest
      exact ⟨extension, List.mem_cons_of_mem _ hextension, hvote⟩

/-! ## The block that follows -/

/-- The commit of a block for which the validators have voted. -/
def commitOf (config : Config) (height : UInt64) (hash : Hash) (validators : List Validator)
    (lastHeight : UInt64) : Commit where
  height := lastHeight
  blockHash := hash
  votes := validators.map (Validator.vote config height hash)

/-- An entry of an aggregate stands for the vote of a validator. -/
structure StandsFor (config : Config) (height : UInt64) (hash : Hash) (validator : Validator)
    (entry : AggregateEntry) : Prop where
  /-- It is of the validator. -/
  validator_eq : entry.validator = validator.address
  /-- Its signature is the one that the vote carries. -/
  decode_eq : VoteExtension.decode (validator.vote config height hash).extension =
    .ok ⟨entry.signature⟩

/-- From `before` to `after` all the validators have got their own keys bound, and nothing else has
changed. -/
structure KeysBound (validators : List Validator) (before after : Store) : Prop where
  /-- The key of a validator is bound to its address. -/
  get?_validator : ∀ validator ∈ validators,
    after.get? (Identity.validator validator.address).storeKey = some validator.key.publicKey
  /-- The value of any other store key is the one from before. -/
  get?_eq : ∀ storeKey, (∀ validator ∈ validators,
      (Identity.validator validator.address).storeKey ≠ storeKey) →
    after.get? storeKey = before.get? storeKey

/-- The entries of an aggregate of honest votes stand for these. -/
theorem standsFor_of_honest {validators : List Validator} {valid : List ValidExtension}
    (h : List.Forall₂ (HonestVote config height hash contents) validators valid) :
    List.Forall₂ (StandsFor config height hash) validators (aggregateOf valid).entries := by
  refine List.forall₂_map_right_iff.2 (h.imp fun validator extension hvote => ?_)
  exact ⟨hvote.supports.validator_eq, hvote.supports.decode_eq⟩

/-- The extensions are of the validators, in their order. -/
theorem map_validator_of_honest {validators : List Validator} {valid : List ValidExtension}
    (h : List.Forall₂ (HonestVote config height hash contents) validators valid) :
    valid.map ValidExtension.validator = validators.map Validator.address := by
  induction h with
  | nil => rfl
  | cons hvote _ ih => exact congrArg₂ List.cons hvote.supports.validator_eq ih

/-- A store that has learned what a block of honest votes lists has the keys of all their
validators. -/
theorem keysBound_of_learned {validators : List Validator} {valid : List ValidExtension}
    {after : Store} (h : List.Forall₂ (HonestVote config height hash contents) validators valid)
    (hbound : ∀ validator ∈ validators,
      contents.get? (Identity.validator validator.address).storeKey = none ∨
        contents.get? (Identity.validator validator.address).storeKey =
          some validator.key.publicKey)
    (hlearned : Learned hash (valid.map ValidExtension.entry) contents after) :
    KeysBound validators contents after where
  get?_validator validator hmem := by
    obtain ⟨extension, hextension, hvote⟩ := exists_mem_of_honest h hmem
    have hvalidator : extension.entry.validator = validator.address := hvote.supports.validator_eq
    rcases hbound validator hmem with hnone | hsome
    · -- The key is learned from the entry.
      rw [← hvalidator] at hnone
      obtain ⟨key, hrecover, -, hget⟩ :=
        hlearned.exists_key extension.entry (List.mem_map_of_mem hextension) hnone
      obtain rfl := Except.ok.inj (hvote.recover_eq.symm.trans hrecover)
      rwa [hvalidator] at hget
    · -- The key stays.
      rw [← hsome]
      refine hlearned.get?_eq _ fun _ _ _ hnone => ?_
      rw [hsome] at hnone
      cases hnone
  get?_eq storeKey hother := by
    refine hlearned.get?_eq storeKey fun entry hentry hkey => ?_
    -- An entry is of one of the validators.
    have hmem : entry.validator ∈ validators.map Validator.address := by
      rw [← map_validator_of_honest h, ← map_validator_entry]
      exact List.mem_map_of_mem hentry
    obtain ⟨validator, hvalidator, heq⟩ := List.mem_map.1 hmem
    rw [← heq] at hkey
    exact absurd hkey (hother validator hvalidator)

/-- The votes of an electorate make a block that replicas accept and learn all its keys from. -/
theorem Electorate.exists_learned {validators : List Validator}
    (h : Electorate config hash contents validators)
    (hheight : config.extensionsEnabled height = true) (txs : List Bytes)
    (lastHeight prepareHeight processHeight : UInt64) :
    ∃ (aggregate : Aggregate) (after : Store),
      (prepare config (.reliable contents) ⟨prepareHeight, txs,
        commitOf config height hash validators lastHeight⟩).run.value =
          .ok ⟨aggregate.encode :: txs⟩ ∧
      List.Forall₂ (StandsFor config height hash) validators aggregate.entries ∧
      ((process config ⟨processHeight, aggregate.encode :: txs,
        commitOf config height hash validators lastHeight⟩).run (.reliable contents)).value =
          (.accept, .reliable after) ∧
      KeysBound validators contents after := by
  have hhonest : ∀ validator ∈ validators, ∃ extension,
      HonestVote config height hash contents validator extension := fun validator hmem =>
    exists_honestVote hheight (h.signs validator hmem) (h.get?_eq validator hmem)
  obtain ⟨valid, hcounted, hvotes⟩ :=
    exists_counted h.nodup (fun _ _ => List.not_mem_nil) hhonest
  have hvalid : (validExtensions (.reliable contents)
      (commitOf config height hash validators lastHeight)).run.value = .ok valid :=
    validExtensions_eq_ok_iff.2 hcounted
  -- There is room for all of them, and there are some.
  have hlength : valid.length ≤ config.maxAggregateEntries.toNat :=
    hvotes.length_eq ▸ h.length_le
  obtain ⟨first, rest, rfl⟩ : ∃ first rest, valid = first :: rest := by
    refine List.exists_cons_of_ne_nil ?_
    rintro rfl
    exact h.ne_nil (List.forall₂_nil_right_iff.1 hvotes)
  have hpasses : Passes config (first :: rest) ((aggregateOf (first :: rest)).encode :: txs)
      (first :: rest) :=
    .aggregated (Aggregate.decode_encode _) (List.cons_ne_nil _ _)
      (by rwa [aggregateOf, List.length_map]) (List.Subset.refl _) hcounted.nodup_validators rfl
  have hstaged : staged config (.reliable contents) ⟨processHeight,
      (aggregateOf (first :: rest)).encode :: txs,
      commitOf config height hash validators lastHeight⟩ = .ok _ :=
    staged_eq_ok_iff.2 ⟨first :: rest, first :: rest, hvalid, hpasses, rfl⟩
  have hlearned := learned_of_staged hstaged
  rw [hpasses.listed_eq] at hlearned
  refine ⟨aggregateOf (first :: rest), _, ?_, standsFor_of_honest hvotes, ?_,
    keysBound_of_learned hvotes h.get?_eq hlearned⟩
  · rw [value_prepare config hvalid, List.take_of_length_le hlength]
    rfl
  · rw [value_process_reliable, hstaged]

/-! ## Heights without extensions -/

/-- Votes without extensions do not count, whatever the store. -/
theorem counted_nil_of_forall_eq_nil (store : HostStore) {seen : List Address} {votes : List Vote}
    (h : ∀ vote ∈ votes, vote.extension = []) : Counted store hash seen votes [] := by
  induction votes with
  | nil => exact .nil
  | cons vote rest ih =>
    obtain ⟨hhead, hrest⟩ := List.forall_mem_cons.1 h
    exact .skip (.inl hhead) (ih hrest)

/-- After a height without extensions the proposer leaves the transactions as they are. -/
theorem value_prepare_of_forall_eq_nil (config : Config) (store : HostStore)
    {request : PrepareRequest} (h : ∀ vote ∈ request.lastCommit.votes, vote.extension = []) :
    (prepare config store request).run.value = .ok ⟨request.txs⟩ := by
  rw [value_prepare config
    (validExtensions_eq_ok_iff.2 (counted_nil_of_forall_eq_nil store h)), List.take_nil]
  rfl

/-! ## Both kinds of heights -/

/-- At a height with extensions the extension of every validator of an electorate is accepted, the
next proposer puts an aggregate with one entry per validator in front of its transactions, and the
replicas accept the block and bind the keys of all validators and nothing else. At a height without
extensions there is nothing to accept, to aggregate or to learn. -/
theorem first_use_learns_keys (config : Config) (height : UInt64) (hash : Hash) :
    (0 < config.extensionsEnableHeight → config.extensionsEnableHeight ≤ height →
      ∀ contents validators, Electorate config hash contents validators →
        (∀ validator ∈ validators,
          (Voting.extend config (some validator.key) ⟨height, hash⟩).run.value =
              .ok ⟨(validator.vote config height hash).extension⟩ ∧
            (Voting.verify config (.reliable contents) ⟨height, hash, validator.address,
              (validator.vote config height hash).extension⟩).value = .accept) ∧
        ∀ txs lastHeight prepareHeight processHeight,
          ∃ (aggregate : Aggregate) (after : Store),
            (prepare config (.reliable contents) ⟨prepareHeight, txs,
              commitOf config height hash validators lastHeight⟩).run.value =
                .ok ⟨aggregate.encode :: txs⟩ ∧
            List.Forall₂ (StandsFor config height hash) validators aggregate.entries ∧
            ((process config ⟨processHeight, aggregate.encode :: txs,
              commitOf config height hash validators lastHeight⟩).run
                (.reliable contents)).value = (.accept, .reliable after) ∧
            KeysBound validators contents after) ∧
    (config.extensionsEnableHeight = 0 ∨ height < config.extensionsEnableHeight →
      (∀ key, (Voting.extend config key ⟨height, hash⟩).run.value = .ok ⟨[]⟩) ∧
      (∀ store validator,
        (Voting.verify config store ⟨height, hash, validator, []⟩).value = .accept) ∧
      ∀ store (request : PrepareRequest),
        (∀ vote ∈ request.lastCommit.votes, vote.extension = []) →
        (prepare config store request).run.value = .ok ⟨request.txs⟩) := by
  constructor
  · intro hpos hle contents validators h
    have hheight := Config.extensionsEnabled_iff.2 ⟨hpos, hle⟩
    refine ⟨fun validator hmem => ?_, h.exists_learned hheight⟩
    obtain ⟨extension, hvote⟩ :=
      exists_honestVote hheight (h.signs validator hmem) (h.get?_eq validator hmem)
    exact ⟨hvote.extend_eq, hvote.verify_eq⟩
  · intro hdisabled
    have hheight : config.extensionsEnabled height = false := by
      refine Bool.eq_false_iff.2 fun henabled => ?_
      obtain ⟨hpos, hle⟩ := Config.extensionsEnabled_iff.1 henabled
      rcases hdisabled with hzero | hlt
      · rw [hzero] at hpos
        exact UInt64.lt_irrefl 0 hpos
      · exact UInt64.not_le.2 hlt hle
    refine ⟨fun key => Voting.value_extend_disabled hheight key, fun store validator => ?_,
      fun store _ h => value_prepare_of_forall_eq_nil config store h⟩
    rw [Voting.value_verify, if_pos rfl, hheight]
    rfl

/-! ### Two voters, one of them bound -/

/-- The secret key whose public key is the generator. -/
def unitKey : SecretKey :=
  ⟨1, by decide +kernel⟩

/-- The secret key whose public key is twice the generator. -/
def doubleKey : SecretKey :=
  ⟨2, by decide +kernel⟩

/-- Two validators with different keys. -/
def bothVoters : List Validator :=
  [⟨firstVoter, unitKey⟩, ⟨secondVoter, doubleKey⟩]

/-- A store in which the second of them is bound. -/
def secondBound : Store :=
  Store.empty.bind ⟨.validator secondVoter, doubleKey.publicKey⟩

/-- The nonces that the two keys sign with. -/
theorem derive?_bothKeys :
    Signature.Nonce.derive? unitKey.scalar votedHash =
        some (.ofNat _ 0xFE0150F7A6F5ADAE22AF2AA8A7A65354934C35B4EFFC3B53887BBA8BEC087F4E) ∧
      Signature.Nonce.derive? doubleKey.scalar votedHash =
        some (.ofNat _ 0x3A70C4248E09165606C9CB0F70AD0D012F0D261AA1291DA973853057564DDF11) := by
  rw [Signature.Nonce.derive?_eq_deriveWith?]
  decide +kernel

theorem signs_unitKey : unitKey.Signs votedHash := by
  rw [SecretKey.signs_iff, derive?_bothKeys.1]
  decide +kernel

theorem signs_doubleKey : doubleKey.Signs votedHash := by
  rw [SecretKey.signs_iff, derive?_bothKeys.2]
  decide +kernel

/-- They are an electorate: the first one is unbound, and the second one is bound to its key. -/
theorem electorate_bothVoters : Electorate {} votedHash secondBound bothVoters where
  ne_nil := List.cons_ne_nil _ _
  length_le := by decide
  nodup := by decide
  get?_eq := by
    intro validator hmem
    rcases List.mem_pair.1 hmem with rfl | rfl
    · left
      exact (Store.get?_bind_of_ne .empty (by decide)).trans (Store.get?_empty _)
    · right
      show (Store.empty.bind ⟨.validator secondVoter, doubleKey.publicKey⟩).get?
        (Identity.validator secondVoter).storeKey = some doubleKey.publicKey
      -- Nothing depends on what the key is.
      generalize doubleKey.publicKey = key
      exact Store.get?_bind_self _ _
  signs := by
    intro validator hmem
    rcases List.mem_pair.1 hmem with rfl | rfl
    · exact signs_unitKey
    · exact signs_doubleKey

/-- At height 1 the key of the unbound validator is learned, which is not that of the bound one; at
height 0 votes have no extensions. -/
theorem first_use_of_bothVoters :
    unitKey.publicKey ≠ doubleKey.publicKey ∧
    (∃ (aggregate : Aggregate) (after : Store),
      (prepare {} (.reliable secondBound) ⟨2, [], commitOf {} 1 votedHash bothVoters 1⟩).run.value =
        .ok ⟨[aggregate.encode]⟩ ∧
      ((process {} ⟨2, [aggregate.encode], commitOf {} 1 votedHash bothVoters 1⟩).run
        (.reliable secondBound)).value = (.accept, .reliable after) ∧
      after.get? (Identity.validator firstVoter).storeKey = some unitKey.publicKey ∧
      after.get? (Identity.validator secondVoter).storeKey = some doubleKey.publicKey) ∧
    (prepare {} (.reliable .empty) ⟨1, [], ⟨0, votedHash, [⟨firstVoter, []⟩]⟩⟩).run.value =
      .ok ⟨[]⟩ := by
  refine ⟨by decide +kernel, ?_, ?_⟩
  · obtain ⟨-, hlearned⟩ := (first_use_learns_keys {} 1 votedHash).1 (by decide) (by decide)
      secondBound bothVoters electorate_bothVoters
    obtain ⟨aggregate, after, hprepare, -, hprocess, hbound⟩ := hlearned [] 1 2 2
    refine ⟨aggregate, after, hprepare, hprocess, ?_, ?_⟩
    · exact hbound.get?_validator ⟨firstVoter, unitKey⟩ List.mem_cons_self
    · exact hbound.get?_validator ⟨secondVoter, doubleKey⟩
        (List.mem_cons_of_mem _ List.mem_cons_self)
  · obtain ⟨-, -, hprepare⟩ := (first_use_learns_keys {} 0 votedHash).2 (.inr (by decide))
    exact hprepare (.reliable .empty) ⟨1, [], ⟨0, votedHash, [⟨firstVoter, []⟩]⟩⟩ (by simp)

end SecondFactor.Proposal
