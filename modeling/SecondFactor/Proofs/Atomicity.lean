import SecondFactor.Proofs.Accounts
import SecondFactor.Proofs.Proposal.Prepare

/-!
# Registrations as a Whole

A registration happens as a whole or not at all, whatever the store holds and whichever calls to it
fail. It succeeds exactly if its message proves a key and the store takes it (`Bindings.Takes`):
what is bound to the sender can be read, and it is the key already, or the policy lets the key be
written and the store writes it. Then the key is bound and nothing else has changed, and the same
message can be sent again to no effect.

## Main results

* `Bindings.exists_bind_iff` and `Registration.exists_execute_iff`: when a binding is made, and when
  a registration succeeds;
* `Registration.registration_atomic`: a registration that fails changes nothing, and one that
  succeeds binds the key of its envelope and may be repeated.
-/

namespace SecondFactor

namespace Bindings

variable {binding : Binding} {policy : RebindPolicy} {store : HostStore}

/-- The store takes a binding. -/
structure Takes (store : HostStore) (binding : Binding) (policy : RebindPolicy)
    (bound : Option Bytes) : Prop where
  /-- What is bound before can be read. -/
  get_eq : get store binding.identity = .ok bound
  /-- It is the key itself, or the policy lets the key be written and the store writes it. -/
  bound_or_accepts : bound = some binding.publicKey ∨
    (bound = none ∨ policy = .lastWriteWins) ∧ store.accepts binding = true

/-- A policy lets a key be bound where none is, or if it lets the last one win. -/
theorem exists_outcome (binding : Binding) {bound : Option Bytes}
    (h : bound = none ∨ policy = .lastWriteWins) :
    ∃ result, outcome binding bound policy = .ok result := by
  rcases h with rfl | rfl
  · exact ⟨.created, rfl⟩
  · cases bound with
    | none => exact ⟨.created, rfl⟩
    | some key =>
      by_cases hkey : key = binding.publicKey
      · exact ⟨.unchanged, outcome_of_eq hkey _⟩
      · exact ⟨.replaced, outcome_lastWriteWins hkey⟩

/-- A binding is made exactly if the store takes it. -/
theorem exists_bind_iff (binding : Binding) (policy : RebindPolicy) (store : HostStore) :
    (∃ result after, ((bind binding policy).run.run store).value = (.ok result, after)) ↔
      ∃ bound, Takes store binding policy bound := by
  rw [value_bind]
  constructor
  · rintro ⟨result, after, h⟩
    cases hget : get store binding.identity with
    | error e => rw [hget] at h; cases h
    | ok bound =>
      rw [hget] at h
      dsimp only at h
      refine ⟨bound, hget, ?_⟩
      cases houtcome : outcome binding bound policy with
      | error e => rw [houtcome] at h; cases h
      | ok result =>
        rw [houtcome] at h
        -- A key that is not there already has to be written, for which there are two conditions.
        cases result
        case unchanged => exact .inl (eq_some_of_outcome_unchanged houtcome)
        all_goals
          refine .inr ⟨eq_none_or_eq_lastWriteWins houtcome nofun, ?_⟩
          unfold HostStore.accepts
          cases hwrite : store.faults.write binding.identity.storeKey with
          | none => rfl
          | some e => rw [hwrite] at h; cases h
  · rintro ⟨bound, hget, rfl | ⟨hadmits, haccepts⟩⟩
    · rw [hget]
      dsimp only
      rw [outcome_of_eq rfl]
      exact ⟨_, _, rfl⟩
    · have hwrite := Option.isNone_iff_eq_none.1 haccepts
      obtain ⟨result, houtcome⟩ := exists_outcome binding hadmits
      rw [hget]
      dsimp only
      rw [houtcome, hwrite]
      cases result <;> exact ⟨_, _, rfl⟩

/-- A binding that is there already announces no write. -/
theorem announcesOnly_bind_known
    (hget : get store binding.identity = .ok (some binding.publicKey)) :
    AnnouncesOnly (fun _ => False) ((bind binding policy).run.run store) := by
  intro identity hmem
  rw [events_bind, hget] at hmem
  dsimp only at hmem
  rw [outcome_of_eq rfl] at hmem
  cases hmem

end Bindings

namespace Registration

variable {config : Config} {ctx : BlockContext} {message : RegisterMessage} {envelope : Envelope}
  {store : HostStore}

/-- A registration succeeds exactly if its message proves a key that the store takes. -/
theorem exists_execute_iff (config : Config) (ctx : BlockContext) (message : RegisterMessage)
    (store : HostStore) :
    (∃ reply after, ((execute config ctx message).run.run store).value = (.ok reply, after)) ↔
      ∃ envelope bound, proved config message = .ok envelope ∧
        Bindings.Takes store ⟨.account message.sender, envelope.publicKey⟩ config.rebindPolicy
          bound := by
  rw [value_execute]
  cases proved config message with
  | error e => simp
  | ok envelope =>
    -- Whatever binding the key gives, the registration succeeds if it does.
    have hbind := Bindings.exists_bind_iff ⟨.account message.sender, envelope.publicKey⟩
      config.rebindPolicy store
    refine Iff.trans ?_ (hbind.trans (by simp))
    dsimp only
    rcases ((Bindings.bind ⟨.account message.sender, envelope.publicKey⟩
      config.rebindPolicy).run.run store).value with ⟨e | result, after⟩
    · simp
    · exact iff_of_true ⟨_, _, rfl⟩ ⟨_, _, rfl⟩

/-- A message whose key is bound already is executed to no effect. -/
theorem value_execute_known (hproved : proved config message = .ok envelope)
    (hget : Bindings.get store (.account message.sender) = .ok (some envelope.publicKey)) :
    ((execute config ctx message).run.run store).value = (.ok {}, store) := by
  rw [value_execute, hproved]
  dsimp only
  rw [Bindings.value_bind, hget]
  dsimp only
  rw [Bindings.outcome_of_eq rfl]

theorem announcesOnly_execute_known (hproved : proved config message = .ok envelope)
    (hget : Bindings.get store (.account message.sender) = .ok (some envelope.publicKey)) :
    AnnouncesOnly (fun _ => False) ((execute config ctx message).run.run store) := by
  refine Update.announcesOnly_bind
    (Update.announcesOnly_lift (announcesOnly_prove config ctx message) store)
    fun read after hread => ?_
  rw [Update.run_lift, Logged.value_map, value_prove, hproved] at hread
  cases hread
  refine Update.announcesOnly_bind (Bindings.announcesOnly_bind_known hget)
    fun outcome after _ => ?_
  refine Update.announcesOnly_bind (Update.announcesOnly_record ?_ after) fun _ _ _ => .pure _
  exact nofun

/-- Whatever the store holds and whichever calls to it fail: a registration succeeds exactly if its
message proves a key that the store takes. If it fails the store is as before. If it succeeds the
key that the envelope declares is bound to the sender, and what is found under other keys of the
store is as before; then the same message succeeds again where no call fails, in any block and under
either policy, and writes nothing. -/
theorem registration_atomic (config : Config) (ctx : BlockContext) (message : RegisterMessage)
    (store : HostStore) :
    let account := Identity.account message.sender
    let result := ((execute config ctx message).run.run store).value
    ((∃ reply, result.1 = .ok reply) ↔
      ∃ envelope bound, proved config message = .ok envelope ∧
        Bindings.Takes store ⟨account, envelope.publicKey⟩ config.rebindPolicy bound) ∧
    (∀ e, result.1 = .error e → result.2 = store) ∧
    ∀ reply, result.1 = .ok reply →
      ∃ envelope, Envelope.decode (body config message) = .ok envelope ∧
        result.2.contents.get? account.storeKey = some envelope.publicKey ∧
        (∀ key, key ≠ account.storeKey →
          result.2.contents.get? key = store.contents.get? key) ∧
        ∀ (later : BlockContext) (policy : RebindPolicy),
          let again := (execute { config with rebindPolicy := policy } later message).run.run
            (.reliable result.2.contents)
          again.value = (.ok {}, .reliable result.2.contents) ∧
            ∀ identity, .writingBinding identity ∉ again.events := by
  intro account result
  refine ⟨?_, ?_⟩
  · rw [← exists_execute_iff config ctx message store]
    constructor
    · rintro ⟨reply, h⟩
      exact ⟨reply, result.2, Prod.ext h rfl⟩
    · rintro ⟨reply, after, h⟩
      exact ⟨reply, congrArg Prod.fst h⟩
  · rcases execute_fails_or_binds config ctx message store with
      ⟨e, hvalue⟩ | ⟨envelope, after, hproved, hvalue, hbound, hafter⟩
    · have hresult : result = (.error e, store) := hvalue
      rw [hresult]
      exact ⟨fun _ _ => rfl, nofun⟩
    · have hresult : result = (.ok {}, after) := hvalue
      rw [hresult]
      refine ⟨nofun, fun reply _ => ⟨envelope, (proved_eq_ok_iff.1 hproved).1, hbound, ?_, ?_⟩⟩
      · intro key hkey
        rcases hafter with rfl | rfl
        · rfl
        · exact Store.get?_bind_of_ne _ hkey.symm
      · intro later policy
        -- The message proves the same key again, and this is the one that it finds bound.
        have hagain : proved { config with rebindPolicy := policy } message = .ok envelope :=
          (proved_congr rfl message).trans hproved
        have hget : Bindings.get (.reliable after.contents) account =
            .ok (some envelope.publicKey) :=
          (Bindings.get_reliable _ _).trans (congrArg Except.ok hbound)
        exact ⟨value_execute_known hagain hget, announcesOnly_execute_known hagain hget⟩

/-! ### A registration that is sent twice, and one whose account cannot be read -/

open Node (firstRegistration proved_firstRegistration value_firstRegistration)
open Proposal (accountRegistered)

/-- An empty store that cannot be read. -/
def unreadable : HostStore where
  contents := .empty
  faults :=
    { read := fun _ => some .lockPoisoned
      write := fun _ => none }

/-- The key of the first voter is registered on an empty store, and a second time under the other
policy to no effect; on a store that cannot be read the registration fails and changes nothing. -/
theorem registration_atomic_first :
    ((execute {} { height := 1 } firstRegistration).run.run (.reliable .empty)).value =
      (.ok {}, .reliable accountRegistered) ∧
    ((execute { rebindPolicy := .lastWriteWins } { height := 2 } firstRegistration).run.run
      (.reliable accountRegistered)).value = (.ok {}, .reliable accountRegistered) ∧
    ∃ e, ((execute {} { height := 1 } firstRegistration).run.run unreadable).value =
      (.error e, unreadable) := by
  have hfirst := value_firstRegistration { height := 1 }
  refine ⟨hfirst, ?_, ?_⟩
  · obtain ⟨-, -, hsucceeds⟩ :=
      registration_atomic {} { height := 1 } firstRegistration (.reliable .empty)
    rw [hfirst] at hsucceeds
    obtain ⟨envelope, -, -, -, hagain⟩ := hsucceeds {} rfl
    exact (hagain { height := 2 } .lastWriteWins).1
  · obtain ⟨htakes, hfails, -⟩ :=
      registration_atomic {} { height := 1 } firstRegistration unreadable
    cases hresult : ((execute {} { height := 1 } firstRegistration).run.run unreadable).value.1 with
    | error e => exact ⟨e, Prod.ext hresult (hfails e hresult)⟩
    | ok reply =>
      -- It would have read what is bound.
      obtain ⟨envelope, bound, -, hread, -⟩ := htakes.1 ⟨reply, hresult⟩
      cases hread

end Registration

end SecondFactor
