import SecondFactor.Proofs.Announcements
import SecondFactor.Proofs.Bindings

/-!
# Laws of Registration

A registration leaves the store as it is or writes the key of its sender (`execute_cases`), and a
key that is there already is replaced only under the policy that says so. It announces no other
write (`announcesOnly_execute`), and `events_execute` tells all that it records.
-/

namespace SecondFactor

namespace Bindings

/-- Binding a key reads what is bound, decides by the policy, and then writes unless the key is
there already. -/
theorem value_bind (binding : Binding) (policy : RebindPolicy) (store : HostStore) :
    ((bind binding policy).run.run store).value =
      match get store binding.identity with
      | .error e => (.error e, store)
      | .ok bound =>
        match outcome binding bound policy with
        | .error e => (.error e, store)
        | .ok .unchanged => (.ok .unchanged, store)
        | .ok result =>
          match store.faults.write binding.identity.storeKey with
          | none => (.ok result, store.withContents (store.contents.bind binding))
          | some e => (.error (.store e), store) := by
  unfold bind
  rw [Update.value_bind, Update.run_getThe]
  change ((MonadExcept.ofExcept (get store binding.identity) >>= _ : Update _).run.run
    store).value = _
  rw [Update.value_bind, Update.run_ofExcept]
  cases get store binding.identity with
  | error e => rfl
  | ok bound =>
    dsimp only [Logged.value_pure]
    rw [Update.value_bind, Update.run_ofExcept]
    cases outcome binding bound policy with
    | error e => rfl
    | ok result =>
      cases result
      case unchanged => rfl
      all_goals
        dsimp only [Logged.value_pure]
        rw [Update.value_bind, value_set]
        cases store.faults.write binding.identity.storeKey <;> rfl

/-- Binding a key leaves no event but that of the write, if it comes to it. -/
theorem events_bind (binding : Binding) (policy : RebindPolicy) (store : HostStore) :
    ((bind binding policy).run.run store).events =
      match get store binding.identity with
      | .error _ => []
      | .ok bound =>
        match outcome binding bound policy with
        | .error _ | .ok .unchanged => []
        | .ok _ => [.writingBinding binding.identity] := by
  unfold bind
  rw [Update.events_bind, Update.run_getThe, Logged.events_pure, List.nil_append]
  dsimp only [Logged.value_pure]
  rw [Update.events_bind, Update.run_ofExcept, Logged.events_pure, List.nil_append]
  cases get store binding.identity with
  | error e => rfl
  | ok bound =>
    dsimp only [Logged.value_pure]
    rw [Update.events_bind, Update.run_ofExcept, Logged.events_pure, List.nil_append]
    cases outcome binding bound policy with
    | error e => rfl
    | ok result =>
      cases result
      case unchanged => rfl
      all_goals
        dsimp only [Logged.value_pure]
        rw [Update.events_bind, events_set, value_set]
        cases store.faults.write binding.identity.storeKey <;> rfl

/-- A policy lets a key be written where none is bound, or if it lets the last one win. -/
theorem eq_none_or_eq_lastWriteWins {binding : Binding} {bound : Option Bytes}
    {policy : RebindPolicy} {result : BindOutcome} (h : outcome binding bound policy = .ok result)
    (hresult : result ≠ .unchanged) : bound = none ∨ policy = .lastWriteWins := by
  unfold outcome at h
  split at h
  · exact .inl rfl
  · split at h
    · cases h
      exact absurd rfl hresult
    · split at h
      · cases h
      · exact .inr rfl

/-- Binding a key leaves the store as it is, or writes the binding where the policy admits it. -/
theorem bind_cases (binding : Binding) (policy : RebindPolicy) (store : HostStore) :
    ((bind binding policy).run.run store).value.2 = store ∨
      ((bind binding policy).run.run store).value.2 =
          store.withContents (store.contents.bind binding) ∧
        (store.contents.get? binding.identity.storeKey = none ∨ policy = .lastWriteWins) := by
  rw [value_bind]
  cases hget : get store binding.identity with
  | error e => exact .inl rfl
  | ok bound =>
    dsimp only
    rw [(get_eq_ok_iff.1 hget).2]
    cases houtcome : outcome binding bound policy with
    | error e => exact .inl rfl
    | ok result =>
      cases result
      case unchanged => exact .inl rfl
      all_goals
        have hadmits := eq_none_or_eq_lastWriteWins houtcome nofun
        cases store.faults.write binding.identity.storeKey with
        | none => exact .inr ⟨rfl, hadmits⟩
        | some e => exact .inl rfl

/-- On a store that does not fail the policy alone decides whether a key is bound. -/
theorem value_bind_reliable (binding : Binding) (policy : RebindPolicy) (contents : Store) :
    ((bind binding policy).run.run (.reliable contents)).value =
      match outcome binding (contents.get? binding.identity.storeKey) policy with
      | .error e => (.error e, .reliable contents)
      | .ok .unchanged => (.ok .unchanged, .reliable contents)
      | .ok result => (.ok result, .reliable (contents.bind binding)) := by
  rw [value_bind, get_reliable]
  rfl

/-- A key that counts as bound already is the one to be bound. -/
theorem eq_some_of_outcome_unchanged {binding : Binding} {bound : Option Bytes}
    {policy : RebindPolicy} (h : outcome binding bound policy = .ok .unchanged) :
    bound = some binding.publicKey := by
  unfold outcome at h
  split at h
  · cases h
  · split at h
    · next hkey => rw [hkey]
    · split at h <;> cases h

/-- An attempt to bind a key either fails and changes nothing, or the key is bound afterwards and at
most its own binding has been written. -/
theorem bind_fails_or_binds (binding : Binding) (policy : RebindPolicy) (store : HostStore) :
    (∃ e, ((bind binding policy).run.run store).value = (.error e, store)) ∨
      ∃ result after, ((bind binding policy).run.run store).value = (.ok result, after) ∧
        after.contents.get? binding.identity.storeKey = some binding.publicKey ∧
        (after = store ∨ after = store.withContents (store.contents.bind binding)) := by
  rw [value_bind]
  cases hget : get store binding.identity with
  | error e => exact .inl ⟨e, rfl⟩
  | ok bound =>
    dsimp only
    cases houtcome : outcome binding bound policy with
    | error e => exact .inl ⟨e, rfl⟩
    | ok result =>
      cases result
      case unchanged =>
        have hbound := (get_eq_ok_iff.1 hget).2.trans (eq_some_of_outcome_unchanged houtcome)
        exact .inr ⟨_, store, rfl, hbound, .inl rfl⟩
      all_goals
        cases store.faults.write binding.identity.storeKey with
        | none => exact .inr ⟨_, _, rfl, Store.get?_bind_self _ _, .inr rfl⟩
        | some e => exact .inl ⟨.store e, rfl⟩

/-- Binding a key announces no other write than that of the binding. -/
theorem announcesOnly_bind (binding : Binding) (policy : RebindPolicy) (store : HostStore) :
    AnnouncesOnly (· = binding.identity) ((bind binding policy).run.run store) := by
  intro identity hmem
  rw [events_bind] at hmem
  split at hmem
  · cases hmem
  · split at hmem
    · cases hmem
    · cases hmem
    · exact Event.writingBinding.inj (List.mem_singleton.1 hmem)

end Bindings

/-- An envelope is valid exactly if both fields have bytes. -/
theorem Envelope.validate_eq_ok_iff {envelope : Envelope} :
    envelope.validate = .ok () ↔ envelope.publicKey ≠ [] ∧ envelope.signature ≠ [] := by
  unfold validate
  split
  · simp [*]
  split
  · simp [*]
  · simp [*]

namespace Registration

/-- The envelope of a message, if it is complete and proves that the sender holds its key. That is a
matter of the message and of the memo prefix alone. -/
def proved (config : Config) (message : RegisterMessage) : Except Error Envelope :=
  match Envelope.decode (body config message) with
  | .error e => .error e
  | .ok envelope =>
    match envelope.validate with
    | .error e => .error e
    | .ok () => if envelope.provesPossession then .ok envelope else .error .verificationFailed

/-- Whether a message proves possession does not depend on the block. -/
theorem value_prove (config : Config) (ctx : BlockContext) (message : RegisterMessage) :
    (prove config ctx message).run.value = proved config message := by
  unfold prove proved
  rw [Attempt.value_bind]
  cases Envelope.decode (body config message) with
  | error e => rfl
  | ok envelope =>
    rw [Attempt.run_orRecord_ok, Logged.value_pure]
    dsimp only
    rw [Attempt.value_bind, Attempt.run_ofExcept, Logged.value_pure]
    cases envelope.validate with
    | error e => rfl
    | ok _ =>
      dsimp only
      split <;> rfl

/-- What reading a message leaves is told by where it fails. -/
theorem events_prove (config : Config) (ctx : BlockContext) (message : RegisterMessage) :
    (prove config ctx message).run.events =
      match Envelope.decode (body config message) with
      | .error e => [.registrationMalformed ctx.height message.sender e]
      | .ok envelope =>
        match envelope.validate with
        | .error _ => []
        | .ok () =>
          if envelope.provesPossession then []
          else [.registrationUnproved ctx.height message.sender] := by
  unfold prove
  rw [Attempt.events_bind]
  cases Envelope.decode (body config message) with
  | error e => rfl
  | ok envelope =>
    rw [Attempt.run_orRecord_ok, Logged.events_pure, List.nil_append, Logged.value_pure]
    dsimp only
    rw [Attempt.events_bind, Attempt.run_ofExcept, Logged.events_pure, List.nil_append,
      Logged.value_pure]
    cases envelope.validate with
    | error e => rfl
    | ok _ =>
      dsimp only
      split <;> rfl

theorem proved_eq_ok_iff {config : Config} {message : RegisterMessage} {envelope : Envelope} :
    proved config message = .ok envelope ↔
      Envelope.decode (body config message) = .ok envelope ∧ envelope.validate = .ok () ∧
        envelope.provesPossession = true := by
  unfold proved
  constructor
  · intro h
    split at h
    · cases h
    · next decoded hdecode =>
      split at h
      · cases h
      · next hvalidate =>
        split at h
        · next hproves =>
          cases h
          exact ⟨hdecode, hvalidate, hproves⟩
        · cases h
  · rintro ⟨hdecode, hvalidate, hproves⟩
    rw [hdecode]
    dsimp only
    rw [hvalidate]
    exact if_pos hproves

/-- A message that proves nothing fails and leaves the store alone; else the key of its envelope is
bound to the sender. -/
theorem value_execute (config : Config) (ctx : BlockContext) (message : RegisterMessage)
    (store : HostStore) :
    ((execute config ctx message).run.run store).value =
      match proved config message with
      | .error e => (.error e, store)
      | .ok envelope =>
        match ((Bindings.bind ⟨.account message.sender, envelope.publicKey⟩
          config.rebindPolicy).run.run store).value with
        | (.error e, after) => (.error e, after)
        | (.ok _, after) => (.ok {}, after) := by
  unfold execute
  rw [Update.value_bind, Update.run_lift, Logged.value_map, value_prove]
  cases proved config message with
  | error e => rfl
  | ok envelope =>
    dsimp only
    rw [Update.value_bind]
    rcases ((Bindings.bind ⟨.account message.sender, envelope.publicKey⟩
      config.rebindPolicy).run.run store).value with ⟨_ | _, _⟩ <;> rfl

/-- Reading comes first, then binding, and last what has come of it. -/
theorem events_execute (config : Config) (ctx : BlockContext) (message : RegisterMessage)
    (store : HostStore) :
    ((execute config ctx message).run.run store).events =
      (prove config ctx message).run.events ++
        match proved config message with
        | .error _ => []
        | .ok envelope =>
          let x := (Bindings.bind ⟨.account message.sender, envelope.publicKey⟩
            config.rebindPolicy).run.run store
          x.events ++
            match x.value.1 with
            | .error _ => []
            | .ok outcome => [.registered ctx.height message.sender outcome] := by
  unfold execute
  rw [Update.events_bind, Update.run_lift, Logged.events_map, Logged.value_map, value_prove]
  cases proved config message with
  | error e => rfl
  | ok envelope =>
    dsimp only
    rw [Update.events_bind]
    rcases ((Bindings.bind ⟨.account message.sender, envelope.publicKey⟩
      config.rebindPolicy).run.run store).value with ⟨_ | _, _⟩ <;> rfl

/-- A registration leaves the store as it is, or it writes a key for its sender, which had none
unless the last key wins. -/
theorem execute_cases (config : Config) (ctx : BlockContext) (message : RegisterMessage)
    (store : HostStore) :
    ((execute config ctx message).run.run store).value.2 = store ∨
      ∃ key, ((execute config ctx message).run.run store).value.2 =
          store.withContents (store.contents.bind ⟨.account message.sender, key⟩) ∧
        (store.contents.get? (Identity.account message.sender).storeKey = none ∨
          config.rebindPolicy = .lastWriteWins) := by
  unfold execute
  rw [Update.value_bind, Update.run_lift, Logged.value_map]
  cases (prove config ctx message).run.value with
  | error e => exact .inl rfl
  | ok envelope =>
    dsimp only
    have hcases := Bindings.bind_cases ⟨.account message.sender, envelope.publicKey⟩
      config.rebindPolicy store
    rw [Update.value_bind]
    -- Whatever the outcome of binding is, nothing after it touches the store.
    rcases hvalue : ((Bindings.bind ⟨.account message.sender, envelope.publicKey⟩
      config.rebindPolicy).run.run store).value with ⟨_ | result, after⟩
    · rw [hvalue] at hcases
      exact hcases.imp_right fun h => ⟨envelope.publicKey, h⟩
    · rw [hvalue] at hcases
      exact hcases.imp_right fun h => ⟨envelope.publicKey, h⟩

/-- A registration either fails and changes nothing, or its message has proved a key, which is then
bound to the sender, and at most this binding has been written. -/
theorem execute_fails_or_binds (config : Config) (ctx : BlockContext) (message : RegisterMessage)
    (store : HostStore) :
    (∃ e, ((execute config ctx message).run.run store).value = (.error e, store)) ∨
      ∃ envelope after, proved config message = .ok envelope ∧
        ((execute config ctx message).run.run store).value = (.ok {}, after) ∧
        after.contents.get? (Identity.account message.sender).storeKey = some envelope.publicKey ∧
        (after = store ∨ after = store.withContents
          (store.contents.bind ⟨.account message.sender, envelope.publicKey⟩)) := by
  rw [value_execute]
  cases proved config message with
  | error e => exact .inl ⟨e, rfl⟩
  | ok envelope =>
    dsimp only
    rcases Bindings.bind_fails_or_binds ⟨.account message.sender, envelope.publicKey⟩
      config.rebindPolicy store with ⟨e, hvalue⟩ | ⟨result, after, hvalue, hbound, hafter⟩
    · exact .inl ⟨e, by rw [hvalue]⟩
    · exact .inr ⟨envelope, after, rfl, by rw [hvalue], hbound, hafter⟩

/-- A registration announces no other write than that of its sender's key. -/
theorem announcesOnly_execute (config : Config) (ctx : BlockContext) (message : RegisterMessage)
    (store : HostStore) :
    AnnouncesOnly (· = .account message.sender) ((execute config ctx message).run.run store) := by
  refine Update.announcesOnly_bind
    (Update.announcesOnly_lift (announcesOnly_prove config ctx message) store)
    fun envelope store _ => ?_
  refine Update.announcesOnly_bind (Bindings.announcesOnly_bind _ _ store) fun outcome store _ => ?_
  refine Update.announcesOnly_bind (Update.announcesOnly_record ?_ store) fun _ _ _ => .pure _
  exact nofun

end Registration

end SecondFactor
