import SecondFactor.Authentication
import SecondFactor.Proposal.Prepare
import SecondFactor.Registration
import SecondFactor.Voting.Gossip

/-!
# Announced Writes

Whatever writes a binding announces it by an event first, so the events of a computation show which
bindings it has tried to write, also where the store refused them. `AnnouncesOnly` bounds them. It
is proved along the way in which computations are put together; the computations that only read
announce nothing, whatever the bound is.
-/

namespace SecondFactor

/-- All bindings that a computation announces to write are of certain identities. -/
def AnnouncesOnly {α : Type} (allowed : Identity → Prop) (x : Logged α) : Prop :=
  ∀ identity, Event.writingBinding identity ∈ x.events → allowed identity

variable {α β : Type} {allowed : Identity → Prop}

/-! ## Events along a computation -/

namespace AnnouncesOnly

theorem pure (a : α) : AnnouncesOnly allowed (Pure.pure a : Logged α) := by
  intro identity h
  cases h

/-- An event that announces nothing may be recorded. -/
theorem record {e : Event} (h : ∀ identity, e ≠ .writingBinding identity) :
    AnnouncesOnly allowed (Logged.record e) := by
  intro identity hmem
  exact absurd (List.mem_singleton.1 hmem).symm (h identity)

theorem bind {x : Logged α} {f : α → Logged β} (hx : AnnouncesOnly allowed x)
    (hf : AnnouncesOnly allowed (f x.value)) : AnnouncesOnly allowed (x >>= f) := by
  intro identity hmem
  rcases List.mem_append.1 hmem with hmem | hmem
  · exact hx identity hmem
  · exact hf identity hmem

theorem map {x : Logged α} (f : α → β) (hx : AnnouncesOnly allowed x) :
    AnnouncesOnly allowed (f <$> x) := by
  intro identity hmem
  rw [Logged.events_map] at hmem
  exact hx identity hmem

/-- A computation announces no more where more is allowed. -/
theorem mono {other : Identity → Prop} {x : Logged α} (hx : AnnouncesOnly allowed x)
    (h : ∀ identity, allowed identity → other identity) : AnnouncesOnly other x :=
  fun identity hmem => h identity (hx identity hmem)

end AnnouncesOnly

namespace Attempt

theorem announcesOnly_record {e : Event} (h : ∀ identity, e ≠ .writingBinding identity) :
    AnnouncesOnly allowed (SecondFactor.record e : Attempt Unit).run :=
  (AnnouncesOnly.record h).map _

theorem announcesOnly_bind {x : Attempt α} {f : α → Attempt β} (hx : AnnouncesOnly allowed x.run)
    (hf : ∀ a, AnnouncesOnly allowed (f a).run) : AnnouncesOnly allowed (x >>= f).run := by
  intro identity hmem
  rw [events_bind] at hmem
  rcases List.mem_append.1 hmem with hmem | hmem
  · exact hx identity hmem
  · split at hmem
    · next a _ => exact hf a identity hmem
    · cases hmem

/-- An event on the way changes nothing for what comes after it. -/
theorem announcesOnly_record_bind {e : Event} {f : Unit → Attempt α}
    (h : ∀ identity, e ≠ .writingBinding identity) (hf : AnnouncesOnly allowed (f ()).run) :
    AnnouncesOnly allowed (SecondFactor.record e >>= f).run :=
  announcesOnly_bind (announcesOnly_record h) fun _ => hf

/-- A result announces nothing, and neither does a failure that is recorded. -/
theorem announcesOnly_orRecord {event : Error → Event} (result : Except Error α)
    (h : ∀ e identity, event e ≠ .writingBinding identity) :
    AnnouncesOnly allowed (orRecord event result).run := by
  cases result with
  | ok a => exact .pure _
  | error e =>
    rw [run_orRecord_error]
    intro identity hmem
    exact absurd (List.mem_singleton.1 hmem).symm (h e identity)

theorem announcesOnly_ofExcept (result : Except Error α) :
    AnnouncesOnly allowed (MonadExcept.ofExcept result : Attempt α).run := by
  rw [run_ofExcept]
  exact .pure result

end Attempt

namespace Update

theorem announcesOnly_bind {x : Update α} {f : α → Update β} {store : HostStore}
    (hx : AnnouncesOnly allowed (x.run.run store))
    (hf : ∀ a after, (x.run.run store).value = (.ok a, after) →
      AnnouncesOnly allowed ((f a).run.run after)) :
    AnnouncesOnly allowed ((x >>= f).run.run store) := by
  intro identity hmem
  rw [events_bind] at hmem
  rcases List.mem_append.1 hmem with hmem | hmem
  · exact hx identity hmem
  · split at hmem
    · next a after hvalue => exact hf a after hvalue identity hmem
    · cases hmem

/-- A handled failure announces what led to it and what the handler announces. -/
theorem announcesOnly_tryCatch {x : Update α} {f : Error → Update α} {store : HostStore}
    (hx : AnnouncesOnly allowed (x.run.run store))
    (hf : ∀ e after, AnnouncesOnly allowed ((f e).run.run after)) :
    AnnouncesOnly allowed ((tryCatch x f).run.run store) := by
  change AnnouncesOnly allowed ((ExceptT.tryCatch x f).run.run store)
  rw [ExceptT.tryCatch, ExceptT.run_mk]
  change AnnouncesOnly allowed (StateT.run (x.run >>= _) store)
  rw [StateT.run_bind]
  refine hx.bind ?_
  rcases (x.run.run store).value with ⟨e | a, after⟩
  · exact hf e after
  · exact .pure _

/-- What cannot write announces as an update what it announces by itself. -/
theorem announcesOnly_lift {attempt : Attempt α} (h : AnnouncesOnly allowed attempt.run)
    (store : HostStore) : AnnouncesOnly allowed ((liftM attempt : Update α).run.run store) :=
  h.map _

theorem announcesOnly_ofExcept (result : Except Error α) (store : HostStore) :
    AnnouncesOnly allowed ((MonadExcept.ofExcept result : Update α).run.run store) := by
  rw [run_ofExcept]
  exact .pure _

theorem announcesOnly_record {e : Event} (h : ∀ identity, e ≠ .writingBinding identity)
    (store : HostStore) :
    AnnouncesOnly allowed ((SecondFactor.record e : Update Unit).run.run store) := by
  rw [run_record]
  exact (AnnouncesOnly.record h).map _

end Update

/-- A write is announced, whether the store takes it or not. -/
theorem Bindings.events_set (binding : Binding) (store : HostStore) :
    ((set binding).run.run store).events = [.writingBinding binding.identity] := by
  rw [set, Update.events_bind]
  change _ :: ((Update.write _ _).run.run store).events = _
  rw [Update.run_write]
  cases store.set binding.identity.storeKey binding.publicKey <;> rfl

/-- No other write is announced. -/
theorem Bindings.announcesOnly_set (binding : Binding) (store : HostStore) :
    AnnouncesOnly (· = binding.identity) ((set binding).run.run store) := by
  intro identity hmem
  rw [events_set] at hmem
  exact Event.writingBinding.inj (List.mem_singleton.1 hmem)

/-! ## Computations that only read -/

namespace Authentication

theorem announcesOnly_checkSigner (store : HostStore) (height : UInt64) (identity : Identity)
    (envelope : Envelope) :
    AnnouncesOnly allowed (checkSigner store height identity envelope).run := by
  refine Attempt.announcesOnly_bind (Attempt.announcesOnly_orRecord _ nofun) fun key => ?_
  split
  · exact Attempt.announcesOnly_record_bind nofun (.pure _)
  · split
    · exact Attempt.announcesOnly_record_bind nofun (.pure _)
    · exact Attempt.announcesOnly_record nofun

/-- No transaction makes the authentication announce a write. -/
theorem announcesOnly_authenticate (config : Config) (store : HostStore) (ctx : BlockContext)
    (tx : Transaction) (simulate : Bool) :
    AnnouncesOnly allowed (authenticate config store ctx tx simulate).run := by
  unfold authenticate
  split
  · exact Attempt.announcesOnly_record_bind nofun (.pure _)
  · split
    · exact .pure _
    · refine Attempt.announcesOnly_bind (Attempt.announcesOnly_orRecord _ nofun) fun found => ?_
      cases found with
      | none => exact Attempt.announcesOnly_record_bind nofun (.pure _)
      | some envelope =>
        refine Attempt.announcesOnly_bind ?_ fun _ => .pure _
        refine Attempt.announcesOnly_bind (Attempt.announcesOnly_orRecord _ nofun) fun _ => ?_
        refine Attempt.announcesOnly_bind (Attempt.announcesOnly_orRecord _ nofun) fun signer => ?_
        exact announcesOnly_checkSigner store ctx.height signer envelope

end Authentication

namespace Voting

/-- Whether there is a key is settled apart from what is done with it: a proof that does both at
once makes the kernel compute signatures. -/
theorem announcesOnly_withKey (key : Option SecretKey) {sign : SecretKey → Attempt ExtendReply}
    (hsign : ∀ key, AnnouncesOnly allowed (sign key).run) :
    AnnouncesOnly allowed (match key with
      | none => throw (Error.config .missingValidatorKey)
      | some key => sign key : Attempt ExtendReply).run := by
  cases key with
  | none => exact .pure _
  | some key => exact hsign key

theorem announcesOnly_extend (config : Config) (key : Option SecretKey) (request : ExtendRequest) :
    AnnouncesOnly allowed (extend config key request).run := by
  unfold extend
  split
  · refine announcesOnly_withKey key fun key => ?_
    cases key.sign? request.hash with
    | none => exact .pure _
    | some signature =>
      exact Attempt.announcesOnly_record_bind nofun (.pure _)
  · exact .pure _

theorem announcesOnly_verify (config : Config) (store : HostStore) (request : CheckRequest) :
    AnnouncesOnly allowed (verify config store request) := by
  unfold verify
  split
  · split
    · exact .bind (.record nofun) (.pure _)
    · exact .pure _
  · split
    · exact .bind (.record nofun) (.pure _)
    · split
      · exact .bind (.record nofun) (.pure _)
      · exact .bind (.record nofun) (.pure _)

end Voting

namespace Proposal

theorem announcesOnly_examine (store : HostStore) (hash : Hash) (vote : Vote) :
    AnnouncesOnly allowed (examine store hash vote).run := by
  unfold examine
  split
  · exact Attempt.announcesOnly_record_bind nofun (.pure _)
  · split
    · exact .pure _
    · exact .pure _
    · exact Attempt.announcesOnly_record_bind nofun (.pure _)

theorem announcesOnly_validAmong (store : HostStore) (hash : Hash) (seen : List Address)
    (votes : List Vote) : AnnouncesOnly allowed (validAmong store hash seen votes).run := by
  induction votes generalizing seen with
  | nil => exact .pure _
  | cons vote rest ih =>
    unfold validAmong
    split
    · exact ih seen
    · split
      · exact Attempt.announcesOnly_record_bind nofun (ih seen)
      · refine Attempt.announcesOnly_bind (announcesOnly_examine store hash vote) fun found => ?_
        exact Attempt.announcesOnly_bind (ih (vote.validator :: seen)) fun others => .pure _

theorem announcesOnly_validExtensions (store : HostStore) (commit : Commit) :
    AnnouncesOnly allowed (validExtensions store commit).run :=
  announcesOnly_validAmong store commit.blockHash [] commit.votes

theorem announcesOnly_prepare (config : Config) (store : HostStore) (request : PrepareRequest) :
    AnnouncesOnly allowed (prepare config store request).run := by
  refine Attempt.announcesOnly_bind (announcesOnly_validExtensions store _) fun valid => ?_
  refine Attempt.announcesOnly_bind (.map _ ?_) fun chosen => ?_
  · unfold capped
    split
    · exact .bind (.record nofun) (.pure _)
    · exact .pure _
  · refine Attempt.announcesOnly_bind (.map _ ?_) fun txs => .pure _
    unfold inject
    split
    · exact .bind (.record nofun) (.pure _)
    · exact .bind (.record nofun) (.pure _)

end Proposal

namespace Registration

theorem announcesOnly_prove (config : Config) (ctx : BlockContext) (message : RegisterMessage) :
    AnnouncesOnly allowed (prove config ctx message).run := by
  refine Attempt.announcesOnly_bind (Attempt.announcesOnly_orRecord _ nofun) fun envelope => ?_
  refine Attempt.announcesOnly_bind (Attempt.announcesOnly_ofExcept _) fun _ => ?_
  split
  · exact .pure _
  · exact Attempt.announcesOnly_record_bind nofun (.pure _)

end Registration

end SecondFactor
