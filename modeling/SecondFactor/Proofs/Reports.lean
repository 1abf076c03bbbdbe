import SecondFactor.Proofs.Atomicity

/-!
# Refusals with Events

Operators learn from events what a node has refused. A computation that may fail reports its
failures (`Attempt.Reports`) if none of them comes without an event; this is proved along the way in
which the computation is put together. It holds of all decisions on transactions, votes and blocks.
Registrations alone may be refused without an event: where a field of the envelope is empty, where
what is bound cannot be read, and where another key is bound and the first one wins
(`Registration.Unreported`).

## Main results

* `Authentication.reports_authenticate`, `Voting.events_verify_ne_nil` and
  `Proposal.events_process_ne_nil`: these refusals all come with an event;
* `Registration.execute_refused_silently_iff`: the registrations that are refused without one;
* `Node.refused_silently_iff`: whatever a node is asked for, these are all that it refuses without
  an event.
-/

namespace SecondFactor

/-! ## Failures along a computation -/

namespace Attempt

variable {α β : Type}

/-- A computation does not fail without an event. -/
def Reports (x : Attempt α) : Prop :=
  ∀ e, x.run.value = .error e → x.run.events ≠ []

theorem reports_pure (a : α) : Reports (pure a) := nofun

/-- Whatever comes after an event, the event is there. -/
theorem reports_record_bind (e : Event) (f : Unit → Attempt α) :
    Reports (SecondFactor.record e >>= f) := by
  intro error _
  rw [events_bind]
  exact List.cons_ne_nil _ _

theorem reports_orRecord (event : Error → Event) (result : Except Error α) :
    Reports (orRecord event result) := by
  cases result with
  | ok a => exact reports_pure a
  | error e => exact reports_record_bind (event e) _

/-- A computation in two parts reports its failures if both do. -/
theorem reports_bind {x : Attempt α} {f : α → Attempt β} (hx : Reports x)
    (hf : ∀ a, Reports (f a)) : Reports (x >>= f) := by
  intro e he
  rw [value_bind] at he
  rw [events_bind]
  cases hvalue : x.run.value with
  | error e => exact List.append_ne_nil_of_left_ne_nil (hx e hvalue) _
  | ok a =>
    rw [hvalue] at he
    exact List.append_ne_nil_of_right_ne_nil _ (hf a e he)

end Attempt

/-! ## Transactions, votes and blocks -/

namespace Authentication

open Attempt (Reports)

theorem reports_checkSigner (store : HostStore) (height : UInt64) (identity : Identity)
    (envelope : Envelope) : Reports (checkSigner store height identity envelope) := by
  refine Attempt.reports_bind (Attempt.reports_orRecord _ _) fun key => ?_
  split
  · exact Attempt.reports_record_bind _ _
  · split
    · exact Attempt.reports_record_bind _ _
    · -- The last event is that of the success.
      exact nofun

theorem reports_checkEnvelope (store : HostStore) (height : UInt64) (tx : Transaction)
    (envelope : Envelope) : Reports (checkEnvelope store height tx envelope) := by
  refine Attempt.reports_bind (Attempt.reports_orRecord _ _) fun _ => ?_
  refine Attempt.reports_bind (Attempt.reports_orRecord _ _) fun signer => ?_
  exact reports_checkSigner store height signer envelope

/-- No transaction is refused without an event. -/
theorem reports_authenticate (config : Config) (store : HostStore) (ctx : BlockContext)
    (tx : Transaction) (simulate : Bool) :
    Reports (authenticate config store ctx tx simulate) := by
  unfold authenticate
  split
  · exact Attempt.reports_record_bind _ _
  · split
    · exact Attempt.reports_pure _
    · refine Attempt.reports_bind (Attempt.reports_orRecord _ _) fun found => ?_
      cases found with
      | none => exact Attempt.reports_record_bind _ _
      | some envelope =>
        exact Attempt.reports_bind (reports_checkEnvelope store ctx.height tx envelope)
          fun _ => Attempt.reports_pure _

end Authentication

/-- No extension of a vote is rejected without an event. -/
theorem Voting.events_verify_ne_nil {config : Config} {store : HostStore} {request : CheckRequest}
    (h : (verify config store request).value = .reject) :
    (verify config store request).events ≠ [] := by
  unfold verify at h ⊢
  split at h
  · split at h
    · next hempty henabled =>
      rw [if_pos hempty, if_pos henabled]
      exact List.cons_ne_nil _ _
    · cases h
  · next hempty =>
    rw [if_neg hempty]
    -- Behind a document there is an event in any case.
    split
    · exact List.cons_ne_nil _ _
    · split <;> exact List.cons_ne_nil _ _

/-- No block is rejected without an event. -/
theorem Proposal.events_process_ne_nil {config : Config} {store : HostStore}
    {request : ProcessRequest} (h : ((process config request).run store).value.1 = .reject) :
    ((process config request).run store).events ≠ [] := by
  rw [value_process_eq] at h
  rw [events_process]
  rcases hvalue : ((checkAndLearn config request).run.run store).value with ⟨e | _, after⟩
  · exact List.append_ne_nil_of_right_ne_nil _ (List.cons_ne_nil _ _)
  · rw [hvalue] at h
    cases h

/-! ## Bindings -/

namespace Bindings

/-- The bindings that are refused before it comes to a write. -/
inductive Withheld (store : HostStore) (binding : Binding) (policy : RebindPolicy) : Prop
  /-- What is bound cannot be read. -/
  | unread {e} (hget : get store binding.identity = .error e)
  /-- Another key is bound, and the first one wins. -/
  | kept {key} (hget : get store binding.identity = .ok (some key))
      (hkey : key ≠ binding.publicKey) (hpolicy : policy = .firstWriteWins)

/-- These are the bindings that are refused without an event. -/
theorem bind_refused_silently_iff {binding : Binding} {policy : RebindPolicy} {store : HostStore} :
    (∃ e, ((bind binding policy).run.run store).value.1 = .error e) ∧
        ((bind binding policy).run.run store).events = [] ↔
      Withheld store binding policy := by
  rw [value_bind, events_bind]
  constructor
  · rintro ⟨⟨e, he⟩, hevents⟩
    cases hget : get store binding.identity with
    | error e => exact .unread hget
    | ok bound =>
      rw [hget] at he hevents
      dsimp only at he hevents
      cases houtcome : outcome binding bound policy with
      | error e =>
        obtain ⟨key, rfl, hkey, hpolicy, -⟩ := exists_key_of_outcome_eq_error houtcome
        exact .kept hget hkey hpolicy
      | ok result =>
        rw [houtcome] at he hevents
        -- Nothing fails where the key is there already, and else the write is announced.
        cases result
        case unchanged => cases he
        all_goals cases hevents
  · rintro (hget | ⟨hget, hkey, rfl⟩)
    · rw [hget]
      exact ⟨⟨_, rfl⟩, rfl⟩
    · rw [hget]
      dsimp only
      rw [outcome_firstWriteWins hkey]
      exact ⟨⟨_, rfl⟩, rfl⟩

end Bindings

/-! ## Registrations -/

namespace Registration

variable {config : Config} {ctx : BlockContext} {message : RegisterMessage}

/-- The registrations that are refused without an event. -/
inductive Unreported (config : Config) (store : HostStore) (message : RegisterMessage) : Prop
  /-- The envelope can be read, but one of its fields has no bytes. -/
  | incomplete {envelope} (hdecode : Envelope.decode (body config message) = .ok envelope)
      (hempty : envelope.publicKey = [] ∨ envelope.signature = [])
  /-- The message proves a key, but this is not bound. -/
  | withheld {envelope} (hproved : proved config message = .ok envelope)
      (hwithheld : Bindings.Withheld store ⟨.account message.sender, envelope.publicKey⟩
        config.rebindPolicy)

/-- Reading a message leaves no event where it proves a key, and where a field is empty. -/
theorem events_prove_eq_nil_iff :
    (prove config ctx message).run.events = [] ↔
      (∃ envelope, proved config message = .ok envelope) ∨
        ∃ envelope, Envelope.decode (body config message) = .ok envelope ∧
          (envelope.publicKey = [] ∨ envelope.signature = []) := by
  -- A field is empty where the envelope is not valid, and this is what is checked in silence.
  have hempty : ∀ envelope : Envelope, (envelope.publicKey = [] ∨ envelope.signature = []) ↔
      ¬envelope.validate = .ok () := by
    intro envelope
    rw [Envelope.validate_eq_ok_iff, ne_eq, ne_eq, ← not_or, not_not]
  simp only [hempty]
  rw [events_prove]
  unfold proved
  cases Envelope.decode (body config message) with
  | error e => simp
  | ok envelope =>
    cases hvalidate : envelope.validate with
    | error e => simp [hvalidate]
    | ok _ => cases hproves : envelope.provesPossession <;> simp [hvalidate, hproves]

/-- These are the registrations that are refused without an event. -/
theorem execute_refused_silently_iff (config : Config) (ctx : BlockContext)
    (message : RegisterMessage) (store : HostStore) :
    (∃ e, ((execute config ctx message).run.run store).value.1 = .error e) ∧
        ((execute config ctx message).run.run store).events = [] ↔
      Unreported config store message := by
  rw [value_execute, events_execute, List.append_eq_nil_iff, events_prove_eq_nil_iff]
  constructor
  · rintro ⟨⟨e, he⟩, ⟨envelope, hproved⟩ | ⟨envelope, hdecode, hempty⟩, hbind⟩
    · rw [hproved] at he hbind
      obtain ⟨hevents, -⟩ := List.append_eq_nil_iff.1 hbind
      refine .withheld hproved (Bindings.bind_refused_silently_iff.1 ⟨?_, hevents⟩)
      -- The registration fails for the error of binding the key.
      dsimp only at he
      rcases hvalue : ((Bindings.bind ⟨.account message.sender, envelope.publicKey⟩
        config.rebindPolicy).run.run store).value with ⟨e | outcome, after⟩
      · exact ⟨e, rfl⟩
      · rw [hvalue] at he
        cases he
    · exact .incomplete hdecode hempty
  · rintro (⟨hdecode, hempty⟩ | @⟨envelope, hproved, hwithheld⟩)
    · cases hproved : proved config message with
      | error e => exact ⟨⟨e, rfl⟩, .inr ⟨_, hdecode, hempty⟩, rfl⟩
      | ok envelope =>
        -- A message that proves a key has no empty field.
        obtain ⟨hread, hkey, hsignature, -⟩ := proved_iff_verify.1 hproved
        cases hdecode.symm.trans hread
        exact absurd hempty (not_or.2 ⟨hkey, hsignature⟩)
    · obtain ⟨⟨e, hfails⟩, hevents⟩ := Bindings.bind_refused_silently_iff.2 hwithheld
      rw [hproved]
      dsimp only
      rw [hevents]
      rcases hvalue : ((Bindings.bind ⟨.account message.sender, envelope.publicKey⟩
        config.rebindPolicy).run.run store).value with ⟨result, after⟩
      rw [hvalue] at hfails
      obtain rfl : result = .error e := hfails
      exact ⟨⟨e, rfl⟩, .inl ⟨envelope, rfl⟩, rfl⟩

end Registration

/-! ## Nodes -/

/-- A reply refuses what was asked for: a registration or a transaction fails, a vote or a block is
rejected. -/
def Reply.Refuses : Reply → Prop
  | .registered result => ∃ e, result = .error e
  | .authenticated result => ∃ e, result = .error e
  | .verified verdict => verdict = .reject
  | .processed verdict => verdict = .reject
  | .extended _ | .prepared _ | .found _ => False

namespace Node

variable {node : Node} {operation : Operation} {store : HostStore}

/-- Nothing but a registration is refused without an event. -/
theorem events_perform_ne_nil (hother : ∀ ctx message, operation ≠ .register ctx message)
    (h : (node.perform operation store).value.1.Refuses) :
    (node.perform operation store).events ≠ [] := by
  cases operation with
  | register ctx message => exact absurd rfl (hother ctx message)
  | authenticate ctx tx simulate =>
    obtain ⟨e, he⟩ := h
    exact List.append_ne_nil_of_left_ne_nil
      (Authentication.reports_authenticate node.config store ctx tx simulate e he) _
  | verify request =>
    exact List.append_ne_nil_of_left_ne_nil (Voting.events_verify_ne_nil h) _
  | process request =>
    exact List.append_ne_nil_of_left_ne_nil (Proposal.events_process_ne_nil h) _
  -- The other operations refuse nothing.
  | extend | prepare | lookup => exact h.elim

/-- A registration is refused without an event exactly if it is one of those. -/
theorem register_refused_silently_iff (node : Node) (ctx : BlockContext) (message : RegisterMessage)
    (store : HostStore) :
    let result := node.perform (.register ctx message) store
    result.value.1.Refuses ∧ result.events = [] ↔
      Registration.Unreported node.config store message := by
  intro result
  have hevents : result.events =
      ((Registration.execute node.config ctx message).run.run store).events :=
    List.append_nil _
  rw [hevents]
  exact Registration.execute_refused_silently_iff node.config ctx message store

/-- Whatever a node is asked for and whichever calls to the store fail: it never refuses a
transaction, a vote or a block without an event. A registration it refuses without one exactly if a
field of the envelope has no bytes, or if the message proves a key, but what is bound to its sender
cannot be read, or is another key and the first one wins. -/
theorem refused_silently_iff (node : Node) (operation : Operation) (store : HostStore) :
    let result := node.perform operation store
    result.value.1.Refuses ∧ result.events = [] ↔
      ∃ ctx message, operation = .register ctx message ∧
        Registration.Unreported node.config store message := by
  intro result
  cases operation with
  | register ctx message =>
    refine Iff.trans (register_refused_silently_iff node ctx message store) ?_
    constructor
    · exact fun h => ⟨ctx, message, rfl, h⟩
    · rintro ⟨_, _, ⟨⟩, h⟩
      exact h
  | authenticate | verify | process | extend | prepare | lookup =>
    refine iff_of_false ?_ ?_
    · rintro ⟨hrefuses, hevents⟩
      refine events_perform_ne_nil ?_ hrefuses hevents
      exact nofun
    · rintro ⟨_, _, ⟨⟩, _⟩

/-! ### Three registrations that are refused without an event -/

open Proposal (accountRegistered firstVoter votedKey)
open Registration (unreadable)

/-- A registration whose envelope has a key and no signature. -/
def unsignedRegistration : RegisterMessage :=
  ⟨firstVoter, Text.utf8 "\x7b\"public_key\":\"0a\",\"signature\":\"\"\x7d"⟩

/-- One registration has an empty field, one comes to a store that cannot be read, and one proves
another key than the first one. -/
theorem registrations_refused_silently :
    let node : Node := ⟨{}, none⟩
    let unsigned := node.perform (.register { height := 1 } unsignedRegistration) (.reliable .empty)
    let unread := node.perform (.register { height := 1 } firstRegistration) unreadable
    let second := node.perform (.register { height := 2 } secondRegistration)
      (.reliable accountRegistered)
    (unsigned.value.1.Refuses ∧ unsigned.events = []) ∧
      (unread.value.1.Refuses ∧ unread.events = []) ∧
      second.value.1.Refuses ∧ second.events = [] := by
  intro node unsigned unread second
  refine ⟨?_, ?_, ?_⟩
  · have hdecode : Envelope.decode (Registration.body {} unsignedRegistration) =
        .ok ⟨[0x0A], []⟩ := rfl
    exact (register_refused_silently_iff node _ _ _).2 (.incomplete hdecode (.inr rfl))
  · exact (register_refused_silently_iff node _ _ _).2
      (.withheld proved_firstRegistration (.unread rfl))
  · have hget : Bindings.get (.reliable accountRegistered) (.account firstVoter) =
        .ok (some votedKey) := rfl
    have hother : votedKey ≠ secondEnvelope.publicKey := by decide +kernel
    exact (register_refused_silently_iff node _ _ _).2
      (.withheld proved_secondRegistration (.kept hget hother rfl))

end Node

end SecondFactor
