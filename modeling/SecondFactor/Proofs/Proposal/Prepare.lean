import SecondFactor.Proofs.Proposal.Decision

/-!
# Laws of Preparing a Proposal

The proposer picks as many valid extensions as an aggregate may hold and puts the aggregate of
these in front of its transactions (`value_prepare`). A replica goes the other way: it reads the
aggregate and looks its entries up. Both meet at the relation `Passes`: what the proposer has put
together passes (`passes_inject_iff`), unless nothing is valid and the transactions, which come
from anyone, themselves start with what reads as an aggregate. The main statements are:

- `prepared_keeps_order`: neither an extension that there is room for nor a transaction is lost, and
  both stand in the order that they had;
- `prepared_accepted_iff`: when replicas accept a block that a proposer has prepared.
-/

namespace SecondFactor

/-- A configuration that a node works with has room for an entry in an aggregate. -/
theorem Config.maxAggregateEntries_pos {config : Config} (h : config.validate = .ok ()) :
    0 < config.maxAggregateEntries.toNat := by
  unfold validate at h
  split at h
  · cases h
  · split at h
    · cases h
    · split at h
      · cases h
      · next hne =>
        refine Nat.pos_of_ne_zero fun hzero => hne ?_
        exact UInt64.toNat_inj.1 hzero

/-- A node works with the configuration that leaves every field out. -/
theorem Config.validate_default : Config.validate {} = .ok () := by
  rw [validate, if_neg (by decide), if_neg (by decide), if_neg (by decide)]

namespace Proposal

/-! ## The prepared block -/

/-- The extensions that an aggregate holds are the first of the valid ones. -/
theorem value_capped (config : Config) (height : UInt64) (valid : List ValidExtension) :
    (capped config height valid).value = valid.take config.maxAggregateEntries.toNat := by
  unfold capped
  split
  · rfl
  · next hfits => rw [List.take_of_length_le (Nat.not_lt.1 hfits)]; rfl

/-- The transactions of a block that aggregates some entries. -/
def withAggregate (entries : List AggregateEntry) (txs : List Bytes) : List Bytes :=
  if entries = [] then txs else Aggregate.encode ⟨entries⟩ :: txs

/-- The aggregate of the chosen extensions is put in front of the transactions, if any are
chosen. -/
theorem value_inject (height : UInt64) (txs : List Bytes) (chosen : List ValidExtension) :
    (inject height txs chosen).value = withAggregate (chosen.map ValidExtension.entry) txs := by
  cases chosen <;> rfl

/-- Where the valid extensions are found a block is put together. -/
theorem value_prepare (config : Config) {store : HostStore} {request : PrepareRequest}
    {valid : List ValidExtension}
    (hvalid : (validExtensions store request.lastCommit).run.value = .ok valid) :
    (prepare config store request).run.value =
      .ok ⟨(inject request.height request.txs
        (valid.take config.maxAggregateEntries.toNat)).value⟩ := by
  rw [← value_capped config request.height, prepare, Attempt.value_bind, hvalid]
  rfl

/-- A prepared block passes unless nothing is valid and the transactions start with what reads as an
aggregate. -/
theorem passes_inject_iff {config : Config} (hlimit : 0 < config.maxAggregateEntries.toNat)
    {valid : List ValidExtension} (hnodup : (valid.map ValidExtension.validator).Nodup)
    (height : UInt64) (txs : List Bytes) :
    (∃ used, Passes config valid
        (inject height txs (valid.take config.maxAggregateEntries.toNat)).value used) ↔
      (valid = [] → startsWithAggregate txs = false) := by
  rw [value_inject]
  by_cases hvalid : valid = []
  · -- Nothing is put in front of the transactions.
    subst hvalid
    rw [List.take_nil, List.map_nil, withAggregate, if_pos rfl]
    constructor
    · rintro ⟨used, hpasses⟩ -
      cases hpasses with
      | plain _ htxs => exact htxs
      | aggregated _ hne _ hused _ hentries =>
        obtain rfl := List.subset_nil.1 hused
        exact absurd hentries.symm hne
    · intro htxs
      exact ⟨[], .plain rfl (htxs rfl)⟩
  · refine iff_of_true ?_ fun h => absurd h hvalid
    -- There is a valid extension and room for one, so an aggregate is put in front.
    have hchosen : (valid.take config.maxAggregateEntries.toNat).map ValidExtension.entry ≠ [] := by
      rw [Ne, List.map_eq_nil_iff, List.take_eq_nil_iff]
      exact not_or.2 ⟨hlimit.ne', hvalid⟩
    have hsublist := List.take_sublist config.maxAggregateEntries.toNat valid
    rw [withAggregate, if_neg hchosen]
    refine ⟨_, .aggregated (Aggregate.decode_encode _) hchosen ?_ hsublist.subset
      (hnodup.sublist (hsublist.map _)) rfl⟩
    rw [List.length_map]
    exact List.length_take_le _ valid

/-- The proposer loses nothing and keeps the order. A block is the transactions at hand where no
extension is valid or there is no room for one. Otherwise an element stands in front of them that
reads as the aggregate of the first of the valid extensions, as many as there is room for, with the
entry of each validator once. -/
theorem prepared_keeps_order (config : Config) (contents : Store) (request : PrepareRequest) :
    ∃ valid reply,
      (validExtensions (.reliable contents) request.lastCommit).run.value = .ok valid ∧
      (prepare config (.reliable contents) request).run.value = .ok reply ∧
      let size := min valid.length config.maxAggregateEntries.toNat
      (size = 0 → reply.txs = request.txs) ∧
      (size ≠ 0 → ∃ injected aggregate, reply.txs = injected :: request.txs ∧
        Aggregate.decode injected = .ok aggregate ∧
        aggregate.entries = (valid.take size).map ValidExtension.entry ∧
        (aggregate.entries.map AggregateEntry.validator).Nodup) := by
  obtain ⟨valid, hvalid⟩ := exists_validExtensions contents request.lastCommit
  have hprepare := value_prepare config hvalid
  have htake : valid.take config.maxAggregateEntries.toNat =
      valid.take (min valid.length config.maxAggregateEntries.toNat) := by
    rw [List.take_eq_take_iff]
    omega
  rw [value_inject, htake] at hprepare
  refine ⟨valid, _, hvalid, hprepare, ?_⟩
  intro size
  constructor
  · intro hzero
    show withAggregate ((valid.take size).map ValidExtension.entry) request.txs = request.txs
    rw [hzero, List.take_zero, List.map_nil, withAggregate, if_pos rfl]
  · intro hsize
    have hchosen : (valid.take size).map ValidExtension.entry ≠ [] := by
      simp only [ne_eq, List.map_eq_nil_iff, List.take_eq_nil_iff]
      -- Without valid extensions there would be nothing to choose.
      rintro (hzero | rfl)
      · exact hsize hzero
      · exact hsize (Nat.zero_min _)
    refine ⟨_, _, if_neg hchosen, Aggregate.decode_encode _, rfl, ?_⟩
    rw [map_validator_entry]
    have hnodup := (validExtensions_eq_ok_iff.1 hvalid).nodup_validators
    exact hnodup.sublist ((List.take_sublist size valid).map _)

/-! ## Proposer and replica -/

/-- A block that a proposer has prepared is accepted by every replica with the same bindings of
validators exactly if there are valid extensions or the transactions that were at hand do not start
with what reads as an aggregate. Without valid extensions the block is these transactions as they
were. -/
theorem prepared_accepted_iff (config : Config) (hconfig : config.validate = .ok ())
    (proposer replica : Store)
    (hbindings : ∀ validator, proposer.get? (Identity.validator validator).storeKey =
      replica.get? (Identity.validator validator).storeKey)
    (request : PrepareRequest) (height : UInt64) :
    ∃ reply valid,
      (prepare config (.reliable proposer) request).run.value = .ok reply ∧
      (validExtensions (.reliable proposer) request.lastCommit).run.value = .ok valid ∧
      (valid = [] → reply.txs = request.txs) ∧
      (((process config ⟨height, reply.txs, request.lastCommit⟩).run
          (.reliable replica)).value.1 = .accept ↔
        (valid = [] → startsWithAggregate request.txs = false)) := by
  obtain ⟨valid, hvalid⟩ := exists_validExtensions proposer request.lastCommit
  refine ⟨_, valid, value_prepare config hvalid, hvalid, ?_, ?_⟩
  · rintro rfl
    rw [List.take_nil]
    rfl
  have hnodup := (validExtensions_eq_ok_iff.1 hvalid).nodup_validators
  -- The replica finds the extensions that the proposer found.
  have hget : ∀ validator, Bindings.get (.reliable proposer) (.validator validator) =
      Bindings.get (.reliable replica) (.validator validator) := by
    intro validator
    rw [Bindings.get_reliable, Bindings.get_reliable, hbindings]
  rw [validExtensions_congr hget] at hvalid
  rw [← passes_inject_iff (Config.maxAggregateEntries_pos hconfig) hnodup request.height]
  exact process_reliable_eq_accept_iff config hvalid

/-- A store in which an account has registered a key and no validator has one. -/
def accountRegistered : Store :=
  Store.empty.bind ⟨.account firstVoter, votedKey⟩

/-- No validator has a key there. -/
theorem get?_accountRegistered (validator : Address) :
    accountRegistered.get? (Identity.validator validator).storeKey = none := by
  refine (Store.get?_bind_of_ne .empty fun h => ?_).trans (Store.get?_empty _)
  cases Identity.storeKey_injective h

/-- A transaction that reads as an aggregate, with a commit to which nobody has voted. -/
def strayAggregate : PrepareRequest where
  height := 2
  txs := [Aggregate.encode ⟨[]⟩]

/-- Behind the aggregate of two first votes a transaction that reads as an aggregate does no
harm. -/
theorem prepared_accepted_first_votes :
    ∃ reply,
      (prepare {} (.reliable accountRegistered)
        ⟨2, strayAggregate.txs, firstVotes.lastCommit⟩).run.value = .ok reply ∧
      ((process {} ⟨2, reply.txs, firstVotes.lastCommit⟩).run (.reliable .empty)).value.1 =
        .accept := by
  obtain ⟨reply, valid, hprepare, hvalid, -, haccept⟩ :=
    prepared_accepted_iff {} Config.validate_default accountRegistered .empty
      get?_accountRegistered ⟨2, strayAggregate.txs, firstVotes.lastCommit⟩ 2
  dsimp only at hvalid haccept
  refine ⟨reply, hprepare, haccept.2 fun hnil => ?_⟩
  -- There are valid extensions, so the proposer has put their aggregate in front.
  have hboth := validExtensions_firstVotes (Bindings.get_reliable accountRegistered _)
    (Bindings.get_reliable accountRegistered _)
  rw [hboth, hnil] at hvalid
  cases hvalid

/-- Without votes the proposer leaves such a transaction in front, and replicas reject the block. -/
theorem prepared_rejected :
    Config.validate {} = .ok () ∧
      (prepare {} (.reliable .empty) strayAggregate).run.value = .ok ⟨strayAggregate.txs⟩ ∧
      ((process {} ⟨2, strayAggregate.txs, strayAggregate.lastCommit⟩).run
        (.reliable .empty)).value.1 = .reject := by
  have hstarts : startsWithAggregate strayAggregate.txs = true := by
    rw [strayAggregate, startsWithAggregate, Aggregate.decode_encode]
    rfl
  have hvalid : (validExtensions (.reliable .empty) strayAggregate.lastCommit).run.value =
    .ok [] := rfl
  refine ⟨Config.validate_default, value_prepare {} hvalid, ?_⟩
  cases hverdict : ((process {} ⟨2, strayAggregate.txs, strayAggregate.lastCommit⟩).run
      (.reliable .empty)).value.1 with
  | reject => rfl
  | accept =>
    -- The block is the prepared one, and nothing is valid.
    have hpasses := (process_reliable_eq_accept_iff {} hvalid).1 hverdict
    have hnodup : (([] : List ValidExtension).map ValidExtension.validator).Nodup := .nil
    have hplain := (passes_inject_iff (Config.maxAggregateEntries_pos Config.validate_default)
      hnodup 2 strayAggregate.txs).1 hpasses rfl
    rw [hstarts] at hplain
    cases hplain

end Proposal

end SecondFactor
