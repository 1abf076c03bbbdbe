import SecondFactor.Proofs.History
import SecondFactor.Proofs.Store

/-!
# Where Bindings Come From

Whatever a node is asked and whichever calls to the store fail, each binding that it holds goes back
to a signature made by its holder: that of a validator to the extension of a vote which a block
repeats (`Proposal.Repeats`), that of an account to the envelope of a registration that succeeded
(`Registration.Proves`). One exchange writes only bindings that it justifies
(`justifies_of_get?_exchange`), and by induction a run holds only bindings that were there at its
start or are justified by one of its exchanges. The main statement is `run_justifies_bindings`.
-/

namespace SecondFactor

/-! ## What justifies a binding -/

/-- A block repeats the extension of a vote, from which the key of the validator follows. -/
structure Proposal.Repeats (request : ProcessRequest) (aggregate : Aggregate) (vote : Vote)
    (signature key : Bytes) : Prop where
  /-- The block starts with an aggregate. -/
  decode_head : ∃ first ∈ request.txs.head?, Aggregate.decode first = .ok aggregate
  /-- The validator stands there with the signature. -/
  mem_entries : ⟨vote.validator, signature⟩ ∈ aggregate.entries
  /-- The validator has voted for the block before. -/
  mem_votes : vote ∈ request.lastCommit.votes
  /-- The signature is the one that extends the vote. -/
  decode_extension : VoteExtension.decode vote.extension = .ok ⟨signature⟩
  /-- The key follows from the signature. -/
  recover_eq : Signature.recover request.lastCommit.blockHash signature = .ok key
  /-- The signature was made with the key. -/
  verify_eq : Signature.verify key request.lastCommit.blockHash (signature.take 64) = true

/-- The message of a registration carries an envelope that was made with a key. -/
structure Registration.Proves (config : Config) (message : RegisterMessage) (envelope : Envelope)
    (key : Bytes) : Prop where
  /-- The message carries the envelope, with the memo prefix before it or without. -/
  decode_body : Envelope.decode (body config message) = .ok envelope
  /-- The envelope declares the key. -/
  publicKey_eq : envelope.publicKey = key
  /-- Its signature over the hash of the key was made with the key. -/
  verify_eq : Signature.verify key (Hash.Keccak.digest key) envelope.signature = true

/-- An exchange in which the holder of an identity has shown to have a key. -/
inductive Exchange.Justifies (config : Config) (x : Exchange) : Identity → Bytes → Prop
  /-- A block was processed that repeats a vote of the validator. -/
  | voted {request aggregate vote signature key} (hoperation : x.operation = .process request)
      (hrepeats : Proposal.Repeats request aggregate vote signature key) :
      Justifies config x (.validator vote.validator) key
  /-- A registration of the account succeeded. -/
  | registered {ctx message envelope key} (hoperation : x.operation = .register ctx message)
      (hreply : x.reply = .registered (.ok {}))
      (hproves : Registration.Proves config message envelope key) :
      Justifies config x (.account message.sender) key

/-- A message that proves a key carries an envelope made with it. -/
theorem Registration.proves_of_proved {config : Config} {message : RegisterMessage}
    {envelope : Envelope} (h : proved config message = .ok envelope) :
    Proves config message envelope envelope.publicKey := by
  obtain ⟨hdecode, -, hproves⟩ := proved_eq_ok_iff.1 h
  exact ⟨hdecode, rfl, hproves⟩

/-- A block lists what the aggregate lists that it starts with. -/
theorem Proposal.exists_decode_of_mem_listed {txs : List Bytes} {entry : AggregateEntry}
    (h : entry ∈ listed txs) :
    ∃ aggregate, (∃ first ∈ txs.head?, Aggregate.decode first = .ok aggregate) ∧
      entry ∈ aggregate.entries := by
  unfold listed at h
  split at h
  · cases h
  · next first _ =>
    split at h
    · next aggregate hdecode => exact ⟨aggregate, ⟨first, rfl, hdecode⟩, h⟩
    · cases h

/-- A block repeats a vote for each binding that is staged. -/
theorem Proposal.Staged.exists_repeats {store : HostStore} {request : ProcessRequest}
    {binding : Binding} {vote : Vote} {signature : Bytes}
    (h : Staged store request binding vote signature) :
    ∃ aggregate, Repeats request aggregate vote signature binding.publicKey := by
  obtain ⟨aggregate, hhead, hentry⟩ := exists_decode_of_mem_listed h.mem_listed
  have hverify := h.verify_eq
  rw [Signature.stripRecoveryByte_of_recover h.recover_eq] at hverify
  exact ⟨aggregate, hhead, hentry, h.mem_votes, h.decode_eq, h.recover_eq, hverify⟩

/-! ## What a run holds -/

namespace Node

/-- What is found after an exchange was there before, or it is a binding that the exchange
justifies. -/
theorem justifies_of_get?_exchange (node : Node) (store : HostStore) (operation : Operation)
    {storeKey value : Bytes}
    (h : (node.exchange store operation).after.get? storeKey = some value) :
    store.contents.get? storeKey = some value ∨
      ∃ identity : Identity, identity.storeKey = storeKey ∧
        (node.exchange store operation).Justifies node.config identity value := by
  cases operation with
  | register ctx message =>
    rw [exchange_register] at h ⊢
    rcases Registration.execute_fails_or_binds node.config ctx message store with
      ⟨e, hvalue⟩ | ⟨envelope, after, hproved, hvalue, -, hafter⟩
    · -- A registration that fails writes nothing.
      rw [hvalue] at h
      exact .inl h
    · rw [hvalue] at h ⊢
      rcases hafter with rfl | rfl
      · exact .inl h
      · rcases Store.get?_bindAll_eq_some [_] h with hbefore | ⟨_, hmem, hkey, rfl⟩
        · exact .inl hbefore
        · obtain rfl := List.mem_singleton.1 hmem
          exact .inr ⟨_, hkey, .registered rfl rfl (Registration.proves_of_proved hproved)⟩
  | process request =>
    rw [exchange_process, Proposal.value_process] at h
    cases hstaged : Proposal.staged node.config store request with
    | error e =>
      rw [hstaged] at h
      exact .inl h
    | ok bindings =>
      rw [hstaged] at h
      -- Also a block that is rejected in the end has written staged bindings only.
      rcases Store.get?_bindAll_eq_some _ h with hbefore | ⟨binding, hmem, hkey, rfl⟩
      · exact .inl hbefore
      · obtain ⟨vote, signature, hbinding⟩ :=
          Proposal.staged_of_mem hstaged (List.takeWhile_subset _ hmem)
        obtain ⟨aggregate, hrepeats⟩ := hbinding.exists_repeats
        rw [hbinding.identity_eq] at hkey
        exact .inr ⟨_, hkey, .voted rfl hrepeats⟩
  -- The other operations leave the store as it is.
  | authenticate | extend | verify | prepare | lookup => exact .inl h

/-- What is found after a run was there at its start, or it is a binding that one of its exchanges
justifies. -/
theorem justifies_of_get?_after (node : Node) (steps : List (Faults × Operation))
    {contents : Store} {storeKey value : Bytes}
    (h : (node.after steps contents).get? storeKey = some value) :
    contents.get? storeKey = some value ∨
      ∃ x ∈ node.history steps contents, ∃ identity : Identity, identity.storeKey = storeKey ∧
        x.Justifies node.config identity value := by
  induction steps generalizing contents with
  | nil => exact .inl h
  | cons step rest ih =>
    obtain ⟨faults, operation⟩ := step
    rw [history_cons]
    rcases ih h with hfirst | ⟨x, hx, hjustifies⟩
    · rcases justifies_of_get?_exchange node ⟨contents, faults⟩ operation hfirst with
        hbefore | hjustifies
      · exact .inl hbefore
      · exact .inr ⟨_, List.mem_cons_self, hjustifies⟩
    · exact .inr ⟨x, List.mem_cons_of_mem _ hx, hjustifies⟩

/-- Over every run from the empty store, with any calls to the store failing in any step: the store
holds bindings only; that of a validator is a key in the uncompressed form which follows from a vote
that a processed block repeats; that of an account is a key which a registration that succeeded has
proved. -/
theorem run_justifies_bindings (node : Node) (steps : List (Faults × Operation)) :
    (∀ storeKey value, (node.after steps .empty).get? storeKey = some value →
      ∃ identity : Identity, identity.storeKey = storeKey) ∧
    (∀ validator key,
      (node.after steps .empty).get? (Identity.validator validator).storeKey = some key →
      key.length = 65 ∧
      ∃ x ∈ node.history steps .empty, ∃ request aggregate vote signature,
        x.operation = .process request ∧ vote.validator = validator ∧
        Proposal.Repeats request aggregate vote signature key) ∧
    (∀ account key,
      (node.after steps .empty).get? (Identity.account account).storeKey = some key →
      ∃ x ∈ node.history steps .empty, ∃ ctx message envelope,
        x.operation = .register ctx message ∧ x.reply = .registered (.ok {}) ∧
        message.sender = account ∧ Registration.Proves node.config message envelope key) := by
  -- Nothing was there at the start.
  have hjustified : ∀ {storeKey value},
      (node.after steps .empty).get? storeKey = some value →
      ∃ x ∈ node.history steps .empty, ∃ identity : Identity, identity.storeKey = storeKey ∧
        x.Justifies node.config identity value := by
    intro storeKey value h
    exact (justifies_of_get?_after node steps h).resolve_left nofun
  refine ⟨fun storeKey value h => ?_, fun validator key h => ?_, fun account key h => ?_⟩
  · obtain ⟨x, -, identity, hkey, -⟩ := hjustified h
    exact ⟨identity, hkey⟩
  · obtain ⟨x, hx, identity, hkey, hjustifies⟩ := hjustified h
    obtain rfl := Identity.storeKey_injective hkey
    cases hjustifies with
    | @voted request aggregate vote signature _ hoperation hrepeats =>
      exact ⟨Signature.length_recover hrepeats.recover_eq, x, hx, request, aggregate, vote,
        signature, hoperation, rfl, hrepeats⟩
  · obtain ⟨x, hx, identity, hkey, hjustifies⟩ := hjustified h
    obtain rfl := Identity.storeKey_injective hkey
    cases hjustifies with
    | @registered ctx message envelope _ hoperation hreply hproves =>
      exact ⟨x, hx, ctx, message, envelope, hoperation, hreply, rfl, hproves⟩

end Node

end SecondFactor
