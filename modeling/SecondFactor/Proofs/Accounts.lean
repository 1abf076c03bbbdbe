import SecondFactor.Proofs.Authentication

/-!
# Bindings of Accounts

What is bound to an account is a function of the messages alone that the account has sent. A message
proves a key or not, whatever the store holds (`Registration.proved`); one that does not fails in
the same way everywhere (`value_perform_unproved`). The keys that an account has proved along a run
(`provedKeys`) determine what is bound to it after the run, by the policy: the first one or the last
one (`get?_after_account`). They also determine which further registrations of the account succeed.
The main statement is `run_folds_registrations`.
-/

namespace SecondFactor

/-- The key that a policy keeps for an account that proves keys one after the other, where `bound`
was bound before. -/
def RebindPolicy.kept (policy : RebindPolicy) (bound : Option Bytes) (keys : List Bytes) :
    Option Bytes :=
  match policy with
  | .firstWriteWins => bound.or keys.head?
  | .lastWriteWins => keys.getLast?.or bound

/-- Without a further key what is bound stays. -/
theorem RebindPolicy.kept_nil (policy : RebindPolicy) (bound : Option Bytes) :
    policy.kept bound [] = bound := by
  cases policy <;> simp [kept]

theorem RebindPolicy.kept_firstWriteWins (keys : List Bytes) :
    firstWriteWins.kept none keys = keys.head? :=
  Option.none_or

theorem RebindPolicy.kept_lastWriteWins (keys : List Bytes) :
    lastWriteWins.kept none keys = keys.getLast? :=
  Option.or_none

/-- Keys may be proved in two parts. -/
theorem RebindPolicy.kept_append (policy : RebindPolicy) (bound : Option Bytes)
    (keys more : List Bytes) :
    policy.kept bound (keys ++ more) = policy.kept (policy.kept bound keys) more := by
  cases policy <;> simp [kept, Option.or_assoc]

namespace Bindings

variable {binding : Binding} {key : Bytes}

theorem outcome_of_eq (h : key = binding.publicKey) (policy : RebindPolicy) :
    outcome binding (some key) policy = .ok .unchanged :=
  if_pos h

theorem outcome_firstWriteWins (h : key ≠ binding.publicKey) :
    outcome binding (some key) .firstWriteWins = .error (.alreadyBound binding.identity) :=
  if_neg h

theorem outcome_lastWriteWins (h : key ≠ binding.publicKey) :
    outcome binding (some key) .lastWriteWins = .ok .replaced :=
  if_neg h

/-- A key is refused only where another one is bound and the first one wins. -/
theorem exists_key_of_outcome_eq_error {bound : Option Bytes} {policy : RebindPolicy} {e : Error}
    (h : outcome binding bound policy = .error e) :
    ∃ key, bound = some key ∧ key ≠ binding.publicKey ∧ policy = .firstWriteWins ∧
      e = .alreadyBound binding.identity := by
  unfold outcome at h
  split at h
  · cases h
  · next key =>
    split at h
    · cases h
    · next hkey =>
      split at h <;> cases h
      exact ⟨key, rfl, hkey, rfl, rfl⟩

end Bindings

/-! ## Messages that prove a key -/

namespace Registration

variable {config : Config} {message : RegisterMessage} {envelope : Envelope}

/-- A message proves a key if its envelope can be read, both fields of the envelope have bytes, and
its signature verifies with the key over the hash of the key. -/
theorem proved_iff_verify :
    proved config message = .ok envelope ↔
      Envelope.decode (body config message) = .ok envelope ∧
        envelope.publicKey ≠ [] ∧ envelope.signature ≠ [] ∧
        Signature.verify envelope.publicKey (Hash.Keccak.digest envelope.publicKey)
          envelope.signature = true := by
  rw [proved_eq_ok_iff, Envelope.validate_eq_ok_iff, and_assoc]
  rfl

/-- What a message proves depends on the memo prefix and on nothing else of the configuration. -/
theorem proved_congr {other : Config} (h : config.memoPrefix = other.memoPrefix)
    (message : RegisterMessage) : proved config message = proved other message := by
  unfold proved body
  rw [h]

/-- On a store that does not fail the policy alone decides on a message that proves a key. -/
theorem value_execute_proved (h : proved config message = .ok envelope) (ctx : BlockContext)
    (contents : Store) :
    ((execute config ctx message).run.run (.reliable contents)).value =
      match Bindings.outcome ⟨.account message.sender, envelope.publicKey⟩
        (contents.get? (Identity.account message.sender).storeKey) config.rebindPolicy with
      | .error e => (.error e, .reliable contents)
      | .ok .unchanged => (.ok {}, .reliable contents)
      | .ok _ =>
        (.ok {}, .reliable (contents.bind ⟨.account message.sender, envelope.publicKey⟩)) := by
  rw [value_execute, h]
  dsimp only
  rw [Bindings.value_bind_reliable]
  cases Bindings.outcome ⟨.account message.sender, envelope.publicKey⟩
    (contents.get? (Identity.account message.sender).storeKey) config.rebindPolicy with
  | error e => rfl
  | ok result => cases result <;> rfl

end Registration

/-- The key that an operation proves for an account, if it is a registration that does. -/
def Operation.provedKey? (config : Config) (account : Address) : Operation → Option Bytes
  | .register _ message =>
    if message.sender = account then
      match Registration.proved config message with
      | .ok envelope => some envelope.publicKey
      | .error _ => none
    else none
  | _ => none

/-- The keys that an account proves along operations, in order. -/
def provedKeys (config : Config) (account : Address) (operations : List Operation) : List Bytes :=
  operations.filterMap (Operation.provedKey? config account)

theorem Operation.provedKey?_eq_some_iff {config : Config} {account : Address}
    {operation : Operation} {key : Bytes} :
    operation.provedKey? config account = some key ↔
      ∃ ctx message envelope, operation = .register ctx message ∧ message.sender = account ∧
        Registration.proved config message = .ok envelope ∧ envelope.publicKey = key := by
  constructor
  · intro h
    cases operation with
    | register ctx message =>
      rw [provedKey?] at h
      split at h
      · next hsender =>
        cases hproved : Registration.proved config message with
        | error e =>
          rw [hproved] at h
          cases h
        | ok envelope =>
          rw [hproved] at h
          exact ⟨ctx, message, envelope, rfl, hsender, hproved, Option.some.inj h⟩
      · cases h
    | authenticate | extend | verify | prepare | process | lookup => cases h
  · rintro ⟨ctx, message, envelope, rfl, hsender, hproved, rfl⟩
    rw [provedKey?, if_pos hsender, hproved]

theorem provedKeys_cons (config : Config) (account : Address) (operation : Operation)
    (rest : List Operation) :
    provedKeys config account (operation :: rest) =
      (operation.provedKey? config account).toList ++ provedKeys config account rest := by
  unfold provedKeys
  cases hkey : operation.provedKey? config account with
  | none => rw [List.filterMap_cons_none hkey]; rfl
  | some key => rw [List.filterMap_cons_some hkey]; rfl

theorem provedKeys_append (config : Config) (account : Address) (past future : List Operation) :
    provedKeys config account (past ++ future) =
      provedKeys config account past ++ provedKeys config account future :=
  List.filterMap_append

namespace Node

open Proposal (firstVoter secondVoter firstVotes votedKey secondRefused)

variable {node : Node} {contents : Store} {operation : Operation} {account : Address} {key : Bytes}

/-! ## One operation -/

/-- A registration that proves nothing fails with the error that its message calls for, whatever the
store holds and whichever calls fail, and it leaves the store as it is. -/
theorem value_perform_unproved {message : RegisterMessage} {e : Error}
    (h : Registration.proved node.config message = .error e) (ctx : BlockContext)
    (store : HostStore) :
    (node.perform (.register ctx message) store).value = (.registered (.error e), store) := by
  have hvalue := Registration.value_execute node.config ctx message store
  rw [h] at hvalue
  exact congrArg (fun result => (Reply.registered result.1, result.2)) hvalue

/-- A registration that proves a key does one of two things. It succeeds, and the key is bound
afterwards; or another key is bound and the first one wins, and it fails and changes nothing. -/
theorem exchange_of_provedKey {bound : Option Bytes}
    (hkey : operation.provedKey? node.config account = some key)
    (hbound : contents.get? (Identity.account account).storeKey = bound) :
    let x := node.exchange (.reliable contents) operation
    (x.reply = .registered (.ok {}) ∧
        x.after.get? (Identity.account account).storeKey = some key ∧
        (node.config.rebindPolicy = .firstWriteWins → ∀ other ∈ bound, other = key)) ∨
      (x.reply = .registered (.error (.alreadyBound (.account account))) ∧ x.after = contents ∧
        node.config.rebindPolicy = .firstWriteWins ∧ ∃ other ∈ bound, other ≠ key) := by
  obtain ⟨ctx, message, envelope, rfl, rfl, hproved, rfl⟩ :=
    Operation.provedKey?_eq_some_iff.1 hkey
  have hwritten := contents.get?_bind_self ⟨.account message.sender, envelope.publicKey⟩
  rw [exchange_register, Registration.value_execute_proved hproved, hbound]
  cases bound with
  | none => exact .inl ⟨rfl, hwritten, fun _ => nofun⟩
  | some other =>
    by_cases hother : other = envelope.publicKey
    · rw [Bindings.outcome_of_eq hother]
      exact .inl ⟨rfl, hbound.trans (congrArg some hother), fun _ _ h =>
        Option.some.inj h ▸ hother⟩
    · -- Another key is bound, so the policy decides.
      cases hpolicy : node.config.rebindPolicy with
      | firstWriteWins =>
        rw [Bindings.outcome_firstWriteWins hother]
        exact .inr ⟨rfl, rfl, rfl, other, rfl, hother⟩
      | lastWriteWins =>
        rw [Bindings.outcome_lastWriteWins hother]
        exact .inl ⟨rfl, hwritten, nofun⟩

/-- An operation binds to an account what the policy keeps of the key that it proves, if any. -/
theorem get?_exchange_account (node : Node) (contents : Store) (operation : Operation)
    (account : Address) :
    (node.exchange (.reliable contents) operation).after.get?
        (Identity.account account).storeKey =
      node.config.rebindPolicy.kept (contents.get? (Identity.account account).storeKey)
        (operation.provedKey? node.config account).toList := by
  cases hkey : operation.provedKey? node.config account with
  | none =>
    rw [Option.toList_none, RebindPolicy.kept_nil]
    -- Only a registration that has proved a key changes the binding.
    by_contra hchanged
    obtain ⟨key, hregisters⟩ := registers_of_get?_ne hchanged
    obtain ⟨ctx, message, envelope, hoperation, hreply, hsender, -, -⟩ := hregisters.exists_message
    obtain rfl : operation = .register ctx message := hoperation
    obtain ⟨proved, hproved, -⟩ := exists_proved_of_reply hreply
    rw [Operation.provedKey?_eq_some_iff.2 ⟨ctx, message, proved, rfl, hsender, hproved, rfl⟩]
      at hkey
    cases hkey
  | some key =>
    rcases exchange_of_provedKey hkey rfl with
      ⟨-, hafter, hsame⟩ | ⟨-, hafter, hpolicy, other, hother, -⟩
    · rw [hafter]
      cases hpolicy : node.config.rebindPolicy with
      | lastWriteWins => rfl
      | firstWriteWins =>
        cases hbound : contents.get? (Identity.account account).storeKey with
        | none => rfl
        | some other => rw [← hsame hpolicy other hbound]; rfl
    · -- The first key is kept.
      rw [hafter, hpolicy, Option.mem_def.1 hother]
      rfl

/-! ## Runs -/

/-- After a run an account is bound to what the policy keeps of the keys that it has proved. -/
theorem get?_after_account (node : Node) (operations : List Operation) (contents : Store)
    (account : Address) :
    (node.after (reliably operations) contents).get? (Identity.account account).storeKey =
      node.config.rebindPolicy.kept (contents.get? (Identity.account account).storeKey)
        (provedKeys node.config account operations) := by
  -- What is kept after the first operation is what is bound before the others.
  induction operations generalizing contents with
  | nil => exact (RebindPolicy.kept_nil _ _).symm
  | cons operation rest ih =>
    change (node.after (reliably rest) (node.exchange (.reliable contents) operation).after).get?
      (Identity.account account).storeKey = _
    rw [ih, get?_exchange_account, provedKeys_cons, RebindPolicy.kept_append]

/-- In a run from the empty store a registration that proves a key succeeds, unless the first key
wins and the account has proved another one first; then it is told so. -/
theorem reply_of_provedKey {operations : List Operation} {earlier later : List Exchange}
    {x : Exchange} (h : node.history (reliably operations) .empty = earlier ++ x :: later)
    (hkey : x.operation.provedKey? node.config account = some key) :
    let keys := provedKeys node.config account (earlier.map Exchange.operation)
    (x.reply = .registered (.ok {}) ∧
        (node.config.rebindPolicy = .firstWriteWins → ∀ first ∈ keys.head?, first = key)) ∨
      (x.reply = .registered (.error (.alreadyBound (.account account))) ∧
        node.config.rebindPolicy = .firstWriteWins ∧ ∃ first ∈ keys.head?, first ≠ key) := by
  obtain ⟨past, operation, future, -, rfl, rfl, -⟩ := exists_operations_of_history_eq h
  have hpast : (node.history (reliably past) .empty).map Exchange.operation = past := by
    rw [map_operation_history, reliably, List.map_map]
    exact List.map_id past
  rw [hpast]
  -- Before the registration there is bound what is kept of the keys that were proved earlier.
  have hbound := get?_after_account node past .empty account
  rw [Store.get?_empty] at hbound
  have hfirst : node.config.rebindPolicy = .firstWriteWins →
      node.config.rebindPolicy.kept none (provedKeys node.config account past) =
        (provedKeys node.config account past).head? := by
    intro hpolicy
    rw [hpolicy, RebindPolicy.kept_firstWriteWins]
  rcases exchange_of_provedKey hkey hbound with
    ⟨hreply, -, hsame⟩ | ⟨hreply, -, hpolicy, hother⟩
  · exact .inl ⟨hreply, fun hpolicy => hfirst hpolicy ▸ hsame hpolicy⟩
  · exact .inr ⟨hreply, hpolicy, hfirst hpolicy ▸ hother⟩

/-- Over every run from the empty store on a store that does not fail, whatever else is asked, what
is bound to an account follows from its messages. One that proves no key fails with its own error
wherever it is executed. If the first key wins the account is bound to the first key that it has
proved; it may prove the same key again, and any other one is refused. If the last key wins every
key that it proves is taken, and it is bound to the last one. Without a proved key it is not
bound. -/
theorem run_folds_registrations (node : Node) (operations : List Operation) (account : Address) :
    let history := node.history (reliably operations) .empty
    let bound := (node.after (reliably operations) .empty).get? (Identity.account account).storeKey
    let keys := provedKeys node.config account operations
    (∀ message envelope, Registration.proved node.config message = .ok envelope ↔
      Envelope.decode (Registration.body node.config message) = .ok envelope ∧
        envelope.publicKey ≠ [] ∧ envelope.signature ≠ [] ∧
        Signature.verify envelope.publicKey (Hash.Keccak.digest envelope.publicKey)
          envelope.signature = true) ∧
    (∀ ctx message e, Registration.proved node.config message = .error e → ∀ store,
      (node.perform (.register ctx message) store).value = (.registered (.error e), store)) ∧
    (node.config.rebindPolicy = .firstWriteWins →
      bound = keys.head? ∧
      ∀ earlier x later key, history = earlier ++ x :: later →
        x.operation.provedKey? node.config account = some key →
        let first? := (provedKeys node.config account (earlier.map Exchange.operation)).head?
        ((∀ first ∈ first?, first = key) → x.reply = .registered (.ok {})) ∧
        (∀ first ∈ first?, first ≠ key →
          x.reply = .registered (.error (.alreadyBound (.account account))))) ∧
    (node.config.rebindPolicy = .lastWriteWins →
      bound = keys.getLast? ∧
      ∀ earlier x later key, history = earlier ++ x :: later →
        x.operation.provedKey? node.config account = some key →
        x.reply = .registered (.ok {})) ∧
    (keys = [] → bound = none) := by
  intro history bound keys
  have hbound : bound = node.config.rebindPolicy.kept none keys := by
    rw [← Store.get?_empty (Identity.account account).storeKey]
    exact get?_after_account node operations .empty account
  refine ⟨fun _ _ => Registration.proved_iff_verify,
    fun ctx message e hunproved => value_perform_unproved hunproved ctx,
    fun hpolicy => ⟨?_, fun earlier x later key hhistory hkey => ?_⟩,
    fun hpolicy => ⟨?_, fun earlier x later key hhistory hkey => ?_⟩, fun hkeys => ?_⟩
  · rw [hbound, hpolicy, RebindPolicy.kept_firstWriteWins]
  · rcases reply_of_provedKey hhistory hkey with
      ⟨hreply, hsame⟩ | ⟨hreply, -, other, hother, hne⟩
    · exact ⟨fun _ => hreply, fun first hfirst hne => absurd (hsame hpolicy first hfirst) hne⟩
    · exact ⟨fun hsame => absurd (hsame other hother) hne, fun _ _ _ => hreply⟩
  · rw [hbound, hpolicy, RebindPolicy.kept_lastWriteWins]
  · rcases reply_of_provedKey hhistory hkey with ⟨hreply, -⟩ | ⟨-, hfirst, -⟩
    · exact hreply
    · rw [hpolicy] at hfirst
      cases hfirst
  · rw [hbound, hkeys, RebindPolicy.kept_nil]

/-! ### An account that registers two keys -/

/-- An envelope made with another key, the double of the first one. -/
def secondEnvelope : Envelope where
  publicKey :=
    4 :: (Bytes.ofNat 32 0xC6047F9441ED7D6D3045406E95C07CD85C778E4B8CEF3CA7ABAC09B95C709EE5 ++
      Bytes.ofNat 32 0x1AE168FEA63DC339A3C58419466CEAEEF7F632653266D0E1236431A950CFE52A)
  signature :=
    Bytes.ofNat 32 0x79BE667EF9DCBBAC55A06295CE870B07029BFCDB2DCE28D959F2815B16F81798 ++
      Bytes.ofNat 32 0x581F4A7F9DBA327490EF0E60BC83B9B455712688B7B68B904C2B840DA850CA68

/-- The voter that has registered the first key registers this one, too. -/
def secondRegistration : RegisterMessage :=
  ⟨firstVoter, Wire.write secondEnvelope⟩

/-- The first registration, a block and a message that proves nothing. -/
def firstRegistered : List Operation :=
  [.register { height := 1 } firstRegistration, .process firstVotes,
    .register { height := 2 } ⟨firstVoter, []⟩]

/-- Then the other key is registered. -/
def bothRegistered : List Operation :=
  firstRegistered ++ [.register { height := 3 } secondRegistration]

/-- The second message proves possession of its key as well. -/
theorem proved_secondRegistration :
    Registration.proved {} secondRegistration = .ok secondEnvelope :=
  proved_write (by decide +kernel) (by decide +kernel) rfl (by decide +kernel)

/-- A message without a body proves nothing. -/
theorem proved_nil (config : Config) (sender : Address) :
    Registration.proved config ⟨sender, []⟩ = .error (.malformedEnvelope .empty) := by
  have hbody : Registration.body config ⟨sender, []⟩ = [] := by
    unfold Registration.body Envelope.bodyOf?
    cases Text.utf8 config.memoPrefix <;> rfl
  rw [Registration.proved, hbody]
  rfl

/-- Whatever the policy is, the voter proves the one key first and then the other one. -/
theorem provedKeys_registered (policy : RebindPolicy) :
    provedKeys { rebindPolicy := policy } firstVoter firstRegistered = [votedKey] ∧
      Operation.provedKey? { rebindPolicy := policy } firstVoter
        (.register { height := 3 } secondRegistration) = some secondEnvelope.publicKey ∧
      provedKeys { rebindPolicy := policy } firstVoter bothRegistered =
        [votedKey, secondEnvelope.publicKey] := by
  have hproved : ∀ message, Registration.proved { rebindPolicy := policy } message =
      Registration.proved {} message := Registration.proved_congr rfl
  have hfirst : provedKeys { rebindPolicy := policy } firstVoter firstRegistered = [votedKey] := by
    simp only [firstRegistered, provedKeys_cons, Operation.provedKey?, hproved, proved_nil,
      proved_firstRegistration]
    rfl
  have hsecond : Operation.provedKey? { rebindPolicy := policy } firstVoter
      (.register { height := 3 } secondRegistration) = some secondEnvelope.publicKey := by
    simp only [Operation.provedKey?, hproved, proved_secondRegistration]
    rfl
  refine ⟨hfirst, hsecond, ?_⟩
  rw [bothRegistered, provedKeys_append, hfirst, provedKeys_cons, hsecond]
  rfl

/-- The last exchange of the run is the second registration. -/
theorem history_bothRegistered (node : Node) :
    ∃ earlier x, node.history (reliably bothRegistered) .empty = earlier ++ [x] ∧
      earlier.map Exchange.operation = firstRegistered ∧
      x.operation = .register { height := 3 } secondRegistration :=
  ⟨[_, _, _], _, rfl, rfl, rfl⟩

/-- A message that proves nothing fails on a store that fails, too. If the first key wins the second
one is refused, and if the last key wins it takes the place of the first one. Another account has no
key. -/
theorem fold_bothRegistered :
    let first : Node := ⟨{ rebindPolicy := .firstWriteWins }, none⟩
    let last : Node := ⟨{ rebindPolicy := .lastWriteWins }, none⟩
    (first.perform (.register {} ⟨firstVoter, []⟩) secondRefused).value =
        (.registered (.error (.malformedEnvelope .empty)), secondRefused) ∧
      (first.after (reliably bothRegistered) .empty).get?
        (Identity.account firstVoter).storeKey = some votedKey ∧
      (∃ earlier x, first.history (reliably bothRegistered) .empty = earlier ++ [x] ∧
        x.reply = .registered (.error (.alreadyBound (.account firstVoter)))) ∧
      (last.after (reliably bothRegistered) .empty).get?
        (Identity.account firstVoter).storeKey = some secondEnvelope.publicKey ∧
      (∃ earlier x, last.history (reliably bothRegistered) .empty = earlier ++ [x] ∧
        x.reply = .registered (.ok {})) ∧
      (first.after (reliably bothRegistered) .empty).get?
        (Identity.account secondVoter).storeKey = none := by
  intro first last
  obtain ⟨hone, hkey, hboth⟩ := provedKeys_registered .firstWriteWins
  obtain ⟨-, hkey', hboth'⟩ := provedKeys_registered .lastWriteWins
  obtain ⟨-, hunproved, hfirst, -, -⟩ := run_folds_registrations first bothRegistered firstVoter
  obtain ⟨-, -, -, hlast, -⟩ := run_folds_registrations last bothRegistered firstVoter
  obtain ⟨-, -, -, -, hnone⟩ := run_folds_registrations first bothRegistered secondVoter
  obtain ⟨earlier, x, hhistory, hearlier, hx⟩ := history_bothRegistered first
  obtain ⟨earlier', x', hhistory', -, hx'⟩ := history_bothRegistered last
  obtain ⟨hbound, hreplies⟩ := hfirst rfl
  obtain ⟨hbound', hreplies'⟩ := hlast rfl
  refine ⟨hunproved {} _ _ (proved_nil _ _) secondRefused, hbound.trans (congrArg _ hboth),
    ⟨earlier, x, hhistory, ?_⟩, hbound'.trans (congrArg _ hboth'),
    ⟨earlier', x', hhistory', ?_⟩, hnone ?_⟩
  · rw [← hx] at hkey
    -- The key that was proved earlier is not this one.
    refine (hreplies earlier x [] _ hhistory hkey).2 votedKey ?_ (by decide +kernel)
    rw [hearlier, hone]
    rfl
  · rw [← hx'] at hkey'
    exact hreplies' earlier' x' [] _ hhistory' hkey'
  · rfl

end Node

end SecondFactor
