import SecondFactor.Proofs.History
import SecondFactor.Proofs.Proposal.Decision

/-!
# Laws of Authentication

A transaction is verified exactly if its memo carries a complete envelope made with the key that is
bound to its primary signer (`Authentic`, `authenticate_eq_verified_iff`). Registration reads the
same envelope in the same way, and only registrations of an account change what is bound to it. So
over a whole run a transaction is verified as long as the key stays registered that its envelope was
made with, and a transaction that is verified carries the key that was registered last. The main
statement is `run_verifies_registered`.
-/

namespace SecondFactor

namespace Authentication

/-! ## One transaction -/

/-- The result of checking a signer, without the events. -/
theorem value_checkSigner (store : HostStore) (height : UInt64) (identity : Identity)
    (envelope : Envelope) :
    (checkSigner store height identity envelope).run.value =
      match Bindings.require store identity with
      | .error e => .error e
      | .ok key =>
        if key ≠ envelope.publicKey then .error (.keyMismatch identity)
        else if Signature.verify key (accountHash key) envelope.signature then .ok ()
        else .error .verificationFailed := by
  unfold checkSigner
  rw [Attempt.value_bind]
  cases Bindings.require store identity with
  | error e => rfl
  | ok key =>
    rw [Attempt.run_orRecord_ok, Logged.value_pure]
    dsimp only
    split
    · rfl
    · cases Signature.verify key (accountHash key) envelope.signature <;> rfl

/-- The result of checking an envelope, without the events. -/
theorem value_checkEnvelope (store : HostStore) (height : UInt64) (tx : Transaction)
    (envelope : Envelope) :
    (checkEnvelope store height tx envelope).run.value =
      match envelope.validate with
      | .error e => .error e
      | .ok () =>
        match signer tx with
        | .error e => .error e
        | .ok identity => (checkSigner store height identity envelope).run.value := by
  unfold checkEnvelope
  rw [Attempt.value_bind]
  cases envelope.validate with
  | error e => rfl
  | ok _ =>
    rw [Attempt.run_orRecord_ok, Logged.value_pure]
    dsimp only
    rw [Attempt.value_bind]
    cases signer tx <;> rfl

/-- The result of authenticating a transaction, without the events. -/
theorem value_authenticate (config : Config) (store : HostStore) (ctx : BlockContext)
    (tx : Transaction) (simulate : Bool) :
    (authenticate config store ctx tx simulate).run.value =
      if simulate ∨ ctx.height = config.genesisHeight then .ok .bypassed
      else if tx.memo = "" then .ok .noMemo
      else
        match Envelope.ofMemo config.memoPrefix tx.memo with
        | .error e => .error e
        | .ok none => .ok .noPrefix
        | .ok (some envelope) =>
          match (checkEnvelope store ctx.height tx envelope).run.value with
          | .error e => .error e
          | .ok () => .ok .verified := by
  unfold authenticate
  split
  · rfl
  · split
    · rfl
    · rw [Attempt.value_bind]
      cases Envelope.ofMemo config.memoPrefix tx.memo with
      | error e => rfl
      | ok found =>
        rw [Attempt.run_orRecord_ok, Logged.value_pure]
        dsimp only
        cases found with
        | none => rfl
        | some envelope =>
          dsimp only
          rw [Attempt.value_bind]
          cases (checkEnvelope store ctx.height tx envelope).run.value <;> rfl

/-- The second factor of a transaction is in order. -/
structure Authentic (config : Config) (store : HostStore) (tx : Transaction) (envelope : Envelope)
    (signer : Address) : Prop where
  /-- The memo carries the envelope. -/
  ofMemo_eq : Envelope.ofMemo config.memoPrefix tx.memo = .ok (some envelope)
  /-- The envelope is complete. -/
  validate_eq : envelope.validate = .ok ()
  /-- The transaction has a primary signer. -/
  primarySigner_eq : tx.primarySigner = .ok signer
  /-- The key of the envelope is bound to the signer. -/
  get_eq : Bindings.get store (.account signer) = .ok (some envelope.publicKey)
  /-- The envelope was made with this key. -/
  proves : envelope.provesPossession = true

/-- A key is required successfully if it is there. -/
theorem require_eq_ok_iff {store : HostStore} {identity : Identity} {key : Bytes} :
    Bindings.require store identity = .ok key ↔ Bindings.get store identity = .ok (some key) := by
  unfold Bindings.require
  rcases Bindings.get store identity with _ | _ | _ <;> simp

/-- A signer passes if the key of the envelope is bound to it and the envelope was made with it. -/
theorem checkSigner_eq_ok_iff {store : HostStore} {height : UInt64} {identity : Identity}
    {envelope : Envelope} :
    (checkSigner store height identity envelope).run.value = .ok () ↔
      Bindings.get store identity = .ok (some envelope.publicKey) ∧
        envelope.provesPossession = true := by
  rw [value_checkSigner, ← require_eq_ok_iff, Envelope.provesPossession]
  cases Bindings.require store identity with
  | error e => simp
  | ok key =>
    by_cases hkey : key = envelope.publicKey
    · subst hkey
      simp
    · simp [hkey]

/-- An envelope in the memo passes if the second factor is in order. -/
theorem checkEnvelope_eq_ok_iff {config : Config} {store : HostStore} {height : UInt64}
    {tx : Transaction} {envelope : Envelope}
    (hmemo : Envelope.ofMemo config.memoPrefix tx.memo = .ok (some envelope)) :
    (checkEnvelope store height tx envelope).run.value = .ok () ↔
      ∃ signer, Authentic config store tx envelope signer := by
  rw [value_checkEnvelope, signer]
  constructor
  · intro h
    split at h
    · cases h
    · next hvalidate =>
      cases hsigner : tx.primarySigner with
      | error e => rw [hsigner] at h; cases h
      | ok address =>
        rw [hsigner] at h
        obtain ⟨hget, hproves⟩ := checkSigner_eq_ok_iff.1 h
        exact ⟨address, hmemo, hvalidate, hsigner, hget, hproves⟩
  · rintro ⟨address, h⟩
    rw [h.validate_eq, h.primarySigner_eq]
    exact checkSigner_eq_ok_iff.2 ⟨h.get_eq, h.proves⟩

/-- An empty memo carries no envelope. -/
theorem ofMemo_empty_ne (memoPrefix : String) (envelope : Envelope) :
    Envelope.ofMemo memoPrefix "" ≠ .ok (some envelope) := by
  unfold Envelope.ofMemo Envelope.bodyOf?
  cases Text.utf8 memoPrefix with
  | nil => exact nofun
  | cons c rest => exact nofun

/-- A transaction is verified exactly if it is executed in a block after genesis and its second
factor is in order. -/
theorem authenticate_eq_verified_iff {config : Config} {store : HostStore} {ctx : BlockContext}
    {tx : Transaction} {simulate : Bool} :
    (authenticate config store ctx tx simulate).run.value = .ok .verified ↔
      simulate = false ∧ ctx.height ≠ config.genesisHeight ∧
        ∃ envelope signer, Authentic config store tx envelope signer := by
  rw [value_authenticate]
  constructor
  · intro h
    split at h
    · cases h
    · next hbypass =>
      obtain ⟨hsimulate, hheight⟩ := not_or.1 hbypass
      refine ⟨Bool.eq_false_iff.2 hsimulate, hheight, ?_⟩
      split at h
      · cases h
      · split at h
        · cases h
        · cases h
        · next envelope hmemo =>
          split at h
          · cases h
          · next hcheck => exact ⟨envelope, (checkEnvelope_eq_ok_iff hmemo).1 hcheck⟩
  · rintro ⟨rfl, hheight, envelope, signer, h⟩
    have hmemo : tx.memo ≠ "" := fun hempty =>
      ofMemo_empty_ne config.memoPrefix envelope (hempty ▸ h.ofMemo_eq)
    rw [if_neg (by simp [hheight]), if_neg hmemo, h.ofMemo_eq]
    dsimp only
    rw [(checkEnvelope_eq_ok_iff h.ofMemo_eq).2 ⟨signer, h⟩]

/-- A memo that puts the body of a registration behind the prefix carries the same envelope. -/
theorem ofMemo_eq_of_utf8_eq {memoPrefix memo : String} {body : Bytes} {envelope : Envelope}
    (hmemo : Text.utf8 memo = Text.utf8 memoPrefix ++ body)
    (hdecode : Envelope.decode body = .ok envelope) :
    Envelope.ofMemo memoPrefix memo = .ok (some envelope) := by
  have hbody : Envelope.bodyOf? memoPrefix (Text.utf8 memo) = some body :=
    Envelope.bodyOf?_eq_some_iff.2 hmemo.symm
  rw [Envelope.ofMemo, hbody]
  dsimp only
  rw [hdecode]

end Authentication

/-! ## Transactions in a run -/

namespace Node

open Proposal (firstVoter firstVotes votedKey)

variable {node : Node}

theorem exchange_authenticate (node : Node) (store : HostStore) (ctx : BlockContext)
    (tx : Transaction) (simulate : Bool) :
    node.exchange store (.authenticate ctx tx simulate) =
      ⟨.authenticate ctx tx simulate,
        .authenticated (Authentication.authenticate node.config store ctx tx simulate).run.value,
        store.contents, store.contents⟩ := rfl

/-- A key that is bound to an account stays bound while no registration of the account declares
another one. -/
theorem get?_after_of_registers_same (steps : List (Faults × Operation)) {contents : Store}
    {account : Address} {key : Bytes}
    (hbound : contents.get? (Identity.account account).storeKey = some key)
    (hsame : ∀ x ∈ node.history steps contents, ∀ other,
      x.Registers node.config account other → other = key) :
    (node.after steps contents).get? (Identity.account account).storeKey = some key := by
  refine after_of_forall_exchange node steps
    (P := fun store => store.get? (Identity.account account).storeKey = some key) hbound ?_
  intro x hx hbefore
  obtain ⟨store, operation, rfl⟩ := exists_eq_exchange hx
  by_contra hafter
  -- Only a registration changes the binding, and it binds the key that it declares.
  obtain ⟨other, hregisters⟩ := registers_of_get?_ne fun heq => hafter (heq.trans hbefore)
  rw [get?_after_of_registers hregisters, hsame _ hx other hregisters] at hafter
  exact hafter rfl

/-- Over every run from the empty store on a store that does not fail, whatever else is asked: once
an account has registered a key, and as long as it registers no other one, its transactions are
verified in every block after genesis if their memo carries the envelope of the registration behind
the prefix. A transaction that is verified comes after a registration of its primary signer, and the
last registration that changed the binding declared the key that the memo carries. -/
theorem run_verifies_registered (node : Node) (operations : List Operation) :
    (∀ earlier x between y later ctx message key block tx,
      node.history (reliably operations) .empty = earlier ++ x :: (between ++ y :: later) →
      x.operation = .register ctx message → x.Registers node.config message.sender key →
      (∀ z ∈ between, ∀ other, z.Registers node.config message.sender other → other = key) →
      y.operation = .authenticate block tx false → block.height ≠ node.config.genesisHeight →
      Text.utf8 tx.memo =
        Text.utf8 node.config.memoPrefix ++ Registration.body node.config message →
      tx.primarySigner = .ok message.sender →
      y.reply = .authenticated (.ok .verified)) ∧
    (∀ earlier y later block tx simulate,
      node.history (reliably operations) .empty = earlier ++ y :: later →
      y.operation = .authenticate block tx simulate → y.reply = .authenticated (.ok .verified) →
      ∃ signer envelope past x between,
        tx.primarySigner = .ok signer ∧
        Envelope.ofMemo node.config.memoPrefix tx.memo = .ok (some envelope) ∧
        earlier = past ++ x :: between ∧
        x.Registers node.config signer envelope.publicKey ∧
        x.after.get? (Identity.account signer).storeKey ≠
          x.before.get? (Identity.account signer).storeKey ∧
        ∀ z ∈ between, z.after.get? (Identity.account signer).storeKey =
          z.before.get? (Identity.account signer).storeKey) := by
  constructor
  · intro earlier x between y later ctx message key block tx hhistory hx hregisters hbetween hy
      hheight hmemo hsigner
    obtain ⟨past, operation, future, -, -, rfl, hfuture⟩ :=
      exists_operations_of_history_eq hhistory
    obtain ⟨meanwhile, operation', rest, -, rfl, rfl, -⟩ :=
      exists_operations_of_history_eq hfuture
    obtain rfl : operation = .register ctx message := hx
    obtain rfl : operation' = .authenticate block tx false := hy
    -- The registration has proved its envelope, and the key of the envelope is still bound.
    obtain ⟨ctx', message', envelope, hoperation, hreply, -, hdecode, rfl⟩ :=
      hregisters.exists_message
    cases hoperation
    obtain ⟨proved, hproved, hbound⟩ := exists_proved_of_reply hreply
    obtain ⟨hdecode', hvalidate, hproves⟩ := Registration.proved_eq_ok_iff.1 hproved
    obtain rfl := Except.ok.inj (hdecode.symm.trans hdecode')
    have hstill := get?_after_of_registers_same (reliably meanwhile) hbound hbetween
    -- So the second factor of the transaction is in order.
    rw [exchange_authenticate]
    refine congrArg Reply.authenticated (Authentication.authenticate_eq_verified_iff.2
      ⟨rfl, hheight, envelope, message.sender, ?_⟩)
    exact {
      ofMemo_eq := Authentication.ofMemo_eq_of_utf8_eq hmemo hdecode
      validate_eq := hvalidate
      primarySigner_eq := hsigner
      get_eq := (Bindings.get_reliable ..).trans (congrArg Except.ok hstill)
      proves := hproves }
  · intro earlier y later block tx simulate hhistory hy hreply
    obtain ⟨asked, operation, rest, -, rfl, rfl, -⟩ := exists_operations_of_history_eq hhistory
    obtain rfl : operation = .authenticate block tx simulate := hy
    obtain ⟨-, -, envelope, signer, h⟩ :=
      Authentication.authenticate_eq_verified_iff.1 (Reply.authenticated.inj hreply)
    have hbound : (node.after (reliably asked) .empty).get? (Identity.account signer).storeKey =
        some envelope.publicKey := Bindings.get_eq_ok_iff.1 h.get_eq |>.2
    -- The store was empty at first, so some exchange has changed the binding.
    rcases exists_last_change node (reliably asked) .empty (Identity.account signer).storeKey with
      ⟨-, hunchanged⟩ | ⟨past, x, between, hhistory, hchange, hbetween, hlast⟩
    · rw [hunchanged] at hbound
      cases hbound
    · obtain ⟨store, operation, rfl⟩ :=
        exists_eq_exchange (hhistory ▸ List.mem_append_right past (.head _))
      obtain ⟨key, hregisters⟩ := registers_of_get?_ne hchange
      -- What it left there is what the transaction was checked with.
      obtain rfl : key = envelope.publicKey := by
        rw [hlast, get?_after_of_registers hregisters] at hbound
        exact Option.some.inj hbound
      exact ⟨signer, envelope, past, _, between, h.primarySigner_eq, h.ofMemo_eq, hhistory,
        hregisters, hchange, hbetween⟩

/-! ### A key that is registered before a block -/

/-- An envelope made with the key that the first voter extends its vote with. -/
def firstEnvelope : Envelope where
  publicKey := votedKey
  signature :=
    Bytes.ofNat 32 0x79BE667EF9DCBBAC55A06295CE870B07029BFCDB2DCE28D959F2815B16F81798 ++
      Bytes.ofNat 32 0x4D0723BBB6EDF1999DD69D40B40A5B3C2D53534B6DBF68D138D4C5CC223FAE21

/-- The voter registers the key for its account, without the memo prefix. -/
def firstRegistration : RegisterMessage :=
  ⟨firstVoter, Wire.write firstEnvelope⟩

/-- A transaction of the voter with the envelope in its memo. -/
def firstTransaction : Transaction where
  memo := ((Envelope.toMemo "SECONDARY" firstEnvelope).toOption).getD ""
  signers := [firstVoter]
  signatures := [⟨firstVoter, some votedKey, []⟩]

/-- The transaction follows after a block in which the same key is bound to the voter as a
validator. -/
def firstOperations : List Operation :=
  [.register { height := 1 } firstRegistration, .process firstVotes,
    .authenticate { height := 2 } firstTransaction false]

/-- A message without the memo prefix proves the key of an envelope that it carries, if the envelope
is complete, has no recovery byte and was made with its key. -/
theorem proved_write {config : Config} {sender : Address} {envelope : Envelope}
    (hbody : Envelope.bodyOf? config.memoPrefix (Wire.write envelope) = none)
    (hsignature : Signature.stripRecoveryByte envelope.signature = envelope.signature)
    (hvalidate : envelope.validate = .ok ()) (hproves : envelope.provesPossession = true) :
    Registration.proved config ⟨sender, Wire.write envelope⟩ = .ok envelope := by
  refine Registration.proved_eq_ok_iff.2 ⟨?_, hvalidate, hproves⟩
  rw [Registration.body, hbody, Option.getD_none, Envelope.decode_write, hsignature]

/-- The message proves possession of the key. -/
theorem proved_firstRegistration :
    Registration.proved {} firstRegistration = .ok firstEnvelope :=
  proved_write (by decide +kernel) (by decide +kernel) rfl (by decide +kernel)

/-- The message is executed on an empty store. -/
theorem value_firstRegistration (ctx : BlockContext) :
    ((Registration.execute {} ctx firstRegistration).run.run (.reliable .empty)).value =
      (.ok {}, .reliable (Store.empty.bind ⟨.account firstVoter, votedKey⟩)) := by
  rw [Registration.value_execute, proved_firstRegistration]
  dsimp only
  rw [Bindings.value_bind_reliable, Store.get?_empty]
  rfl

/-- The registration succeeds, and the transaction is verified. -/
theorem verified_firstTransaction :
    ∃ x y z, (⟨{}, none⟩ : Node).history (reliably firstOperations) .empty = [x, y, z] ∧
      x.reply = .registered (.ok {}) ∧ z.reply = .authenticated (.ok .verified) := by
  let node : Node := ⟨{}, none⟩
  let registered := node.exchange (.reliable .empty) (.register { height := 1 } firstRegistration)
  have hreply : registered.reply = .registered (.ok {}) := by
    rw [show registered = _ from exchange_register_of_value (value_firstRegistration _)]
  have hdecode := (Registration.proved_eq_ok_iff.1 proved_firstRegistration).1
  have hregisters : registered.Registers node.config firstVoter votedKey :=
    ⟨_, _, _, rfl, hreply, rfl, hdecode, rfl⟩
  have hmemo : Text.utf8 firstTransaction.memo =
      Text.utf8 "SECONDARY" ++ Registration.body {} firstRegistration := by
    decide +kernel
  refine ⟨registered, _, _, rfl, hreply, ?_⟩
  refine (run_verifies_registered node firstOperations).1 [] registered [_] _ [] _ _ votedKey _ _
    rfl rfl hregisters ?_ rfl (by decide) hmemo rfl
  -- The block between the two registers nothing.
  intro z hz other hregisters
  obtain rfl := List.mem_singleton.1 hz
  obtain ⟨ctx, message, envelope, hoperation, -⟩ := hregisters.exists_message
  cases hoperation

end Node

end SecondFactor
