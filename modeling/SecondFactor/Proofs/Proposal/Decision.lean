import SecondFactor.Proofs.Json.Records
import SecondFactor.Proposal.Prepare
import SecondFactor.Proofs.Proposal.Process

/-!
# What a Verdict Means

The verdict on a block, said without the loops that reach it. `Admissible` is the condition on the
transactions of a block, given the valid extensions of the last commit; `Learned` says what a
block teaches the store. The main statements are:

- `process_accepts_iff_admissible`: on a store that does not fail a block is accepted exactly if
  it is admissible; then the store learns the listed keys that it lacked, else it stays as it is;
- `rejected_unchanged_iff`: on a store that may fail a rejected block leaves the store as it is
  exactly if no write is refused after another one succeeded.
-/

namespace SecondFactor.Proposal

/-! ## Admissible blocks -/

/-- `Admissible config valid txs`: a block with the transactions `txs` is as it has to be where the
extensions in `valid` are valid. -/
inductive Admissible (config : Config) (valid : List ValidExtension) : List Bytes → Prop
  /-- Nothing is valid, and the block does not start with what reads as an aggregate. -/
  | plain {txs} (hvalid : valid = [])
      (htxs : ∀ first ∈ txs.head?, ∀ aggregate, Aggregate.decode first ≠ .ok aggregate) :
      Admissible config valid txs
  /-- Something is valid, and the block starts with an aggregate of entries of different validators
  that are among the valid ones, at least one and no more than the bound. -/
  | aggregated {first rest aggregate} (hvalid : valid ≠ [])
      (hdecode : Aggregate.decode first = .ok aggregate) (hne : aggregate.entries ≠ [])
      (hlimit : aggregate.entries.length ≤ config.maxAggregateEntries.toNat)
      (hdistinct : (aggregate.entries.map AggregateEntry.validator).Nodup)
      (hentries : ∀ entry ∈ aggregate.entries, ∃ extension ∈ valid,
        extension.validator = entry.validator ∧ extension.signature = entry.signature) :
      Admissible config valid (first :: rest)

/-- A block starts with no aggregate if its first transaction is missing or does not read as one. -/
theorem startsWithAggregate_eq_false_iff {txs : List Bytes} :
    startsWithAggregate txs = false ↔
      ∀ first ∈ txs.head?, ∀ aggregate, Aggregate.decode first ≠ .ok aggregate := by
  cases txs with
  | nil => simp [startsWithAggregate]
  | cons first rest =>
    unfold startsWithAggregate
    cases hdecode : Aggregate.decode first <;> simp [hdecode, Except.isOk, Except.toBool]

/-- The entries of extensions are of the validators of these. -/
theorem map_validator_entry (used : List ValidExtension) :
    (used.map ValidExtension.entry).map AggregateEntry.validator =
      used.map ValidExtension.validator := by
  rw [List.map_map]
  rfl

/-- Entries that are each the one of a valid extension are together those of some. -/
theorem exists_used {valid : List ValidExtension} {entries : List AggregateEntry}
    (h : ∀ entry ∈ entries, ∃ extension ∈ valid,
      extension.validator = entry.validator ∧ extension.signature = entry.signature) :
    ∃ used : List ValidExtension, used ⊆ valid ∧ used.map ValidExtension.entry = entries := by
  induction entries with
  | nil => exact ⟨[], List.nil_subset _, rfl⟩
  | cons entry rest ih =>
    obtain ⟨⟨extension, hmem, hvalidator, hsignature⟩, hrest⟩ := List.forall_mem_cons.1 h
    obtain ⟨used, hused, rfl⟩ := ih hrest
    have hentry : extension.entry = entry := congrArg₂ AggregateEntry.mk hvalidator hsignature
    exact ⟨extension :: used, List.cons_subset.2 ⟨hmem, hused⟩, by rw [List.map_cons, hentry]⟩

/-- The blocks that pass are the admissible ones. -/
theorem exists_passes_iff_admissible {config : Config} {valid : List ValidExtension}
    {txs : List Bytes} : (∃ used, Passes config valid txs used) ↔ Admissible config valid txs := by
  constructor
  · rintro ⟨used, hpasses⟩
    cases hpasses with
    | plain hvalid htxs => exact .plain hvalid (startsWithAggregate_eq_false_iff.1 htxs)
    | aggregated hdecode hne hlimit hused hdistinct hentries =>
      -- That the extensions are of different validators says the same of their entries.
      rw [← map_validator_entry, hentries] at hdistinct
      refine .aggregated ?_ hdecode hne hlimit hdistinct ?_
      · -- An entry stands for a valid extension, so there is one.
        rintro rfl
        obtain rfl := List.subset_nil.1 hused
        exact hne hentries.symm
      · intro entry hentry
        rw [← hentries] at hentry
        obtain ⟨extension, hextension, rfl⟩ := List.mem_map.1 hentry
        exact ⟨extension, hused hextension, rfl, rfl⟩
  · intro hadmissible
    cases hadmissible with
    | plain hvalid htxs => exact ⟨[], .plain hvalid (startsWithAggregate_eq_false_iff.2 htxs)⟩
    | aggregated _ hdecode hne hlimit hdistinct hentries =>
      obtain ⟨used, hused, hmap⟩ := exists_used hentries
      rw [← hmap, map_validator_entry] at hdistinct
      exact ⟨used, .aggregated hdecode hne hlimit hused hdistinct hmap⟩

/-! ## What the store learns -/

/-- `Learned hash entries before after`: from `before` to `after` the listed validators that had no
binding have got the keys that are recovered from their signatures, and nothing else has changed. -/
structure Learned (hash : Hash) (entries : List AggregateEntry) (before after : Store) : Prop where
  /-- A listed validator without a binding has got the key, in the uncompressed form. -/
  exists_key : ∀ entry ∈ entries, before.get? (Identity.validator entry.validator).storeKey = none →
    ∃ key, Signature.recover hash entry.signature = .ok key ∧ key.length = 65 ∧
      after.get? (Identity.validator entry.validator).storeKey = some key
  /-- The value of any other store key is the one from before. -/
  get?_eq : ∀ storeKey, (∀ entry ∈ entries,
      (Identity.validator entry.validator).storeKey = storeKey → before.get? storeKey ≠ none) →
    after.get? storeKey = before.get? storeKey

/-- Writing what is staged teaches the store what the block lists. -/
theorem learned_of_staged {config : Config} {contents : Store} {request : ProcessRequest}
    {bindings : List Binding} (h : staged config (.reliable contents) request = .ok bindings) :
    Learned request.lastCommit.blockHash (listed request.txs) contents
      (contents.bindAll bindings) where
  exists_key entry hentry hunbound := by
    obtain ⟨key, hrecover, hmem⟩ := exists_staged_of_mem_listed h hentry hunbound
    exact ⟨key, hrecover, Signature.length_recover hrecover,
      contents.get?_bindAll_of_mem (nodup_staged h) hmem⟩
  get?_eq storeKey hkept := by
    refine contents.get?_bindAll_of_forall_ne fun binding hbinding heq => ?_
    -- A staged binding is of a listed validator that is not bound.
    obtain ⟨vote, signature, hstaged⟩ := staged_of_mem h hbinding
    have hget := (Bindings.get_eq_ok_iff.1 hstaged.get_eq).2
    rw [heq] at hget
    rw [hstaged.identity_eq] at heq
    exact hkept _ hstaged.mem_listed heq hget

/-- On a store that does not fail every block gets a verdict by whether it is admissible. An
accepted block teaches the store the keys of the validators that it lists, and a rejected one leaves
the store as it is. -/
theorem process_accepts_iff_admissible (config : Config) (contents : Store)
    (request : ProcessRequest) :
    ∃ valid verdict after,
      (validExtensions (.reliable contents) request.lastCommit).run.value = .ok valid ∧
      ((process config request).run (.reliable contents)).value = (verdict, .reliable after) ∧
      (verdict = .accept ↔ Admissible config valid request.txs) ∧
      (verdict = .accept →
        Learned request.lastCommit.blockHash (listed request.txs) contents after) ∧
      (verdict = .reject → after = contents) := by
  obtain ⟨valid, hvalid⟩ := exists_validExtensions contents request.lastCommit
  -- The verdict depends on the check, and so on whether the block is admissible.
  have hverdict := (process_reliable_eq_accept_iff config hvalid).trans exists_passes_iff_admissible
  have hvalue := value_process_reliable config contents request
  cases hstaged : staged config (.reliable contents) request with
  | error e =>
    rw [hstaged] at hvalue
    rw [hvalue] at hverdict
    exact ⟨valid, .reject, contents, hvalid, hvalue, hverdict, nofun, fun _ => rfl⟩
  | ok bindings =>
    rw [hstaged] at hvalue
    rw [hvalue] at hverdict
    exact ⟨valid, .accept, contents.bindAll bindings, hvalid, hvalue, hverdict,
      fun _ => learned_of_staged hstaged, nofun⟩

/-! ## Rejected blocks -/

/-- Once the first of the staged bindings is written the contents are others than before. -/
theorem bindAll_staged_ne {config : Config} {store : HostStore} {request : ProcessRequest}
    {first : Binding} {rest written : List Binding}
    (h : staged config store request = .ok (first :: rest)) (hwritten : written.Sublist rest) :
    store.contents.bindAll (first :: written) ≠ store.contents := by
  obtain ⟨vote, signature, hstaged⟩ := staged_of_mem h List.mem_cons_self
  have hbefore := (Bindings.get_eq_ok_iff.1 hstaged.get_eq).2
  -- None of the other bindings is of the same identity, so none overwrites the first one.
  have hnodup := (nodup_staged h).sublist ((hwritten.cons_cons first).map Binding.identity)
  have hafter := store.contents.get?_bindAll_of_mem hnodup List.mem_cons_self
  intro heq
  -- The first binding is found afterwards, and before there was none of its identity.
  rw [heq, hbefore] at hafter
  cases hafter

/-- Whatever calls to the store fail, a rejected block leaves the contents as they are exactly if no
write of a staged binding is refused after the first one succeeded. -/
theorem rejected_unchanged_iff (config : Config) (store : HostStore) (request : ProcessRequest) :
    (((process config request).run store).value.1 = .reject →
        ((process config request).run store).value.2.contents = store.contents) ↔
      ∀ first rest, staged config store request = .ok (first :: rest) →
        store.accepts first = true → ∀ binding ∈ rest, store.accepts binding = true := by
  rw [value_process]
  cases hstaged : staged config store request with
  | error e => simp
  | ok bindings =>
    cases bindings with
    | nil => simp
    | cons first rest =>
      dsimp only
      constructor
      · intro hunchanged first' rest' heq hfirst
        cases heq
        -- If one of the others were refused the block would be rejected with the first one written.
        by_contra hrefused
        have hall : ¬(first :: rest).all store.accepts = true := fun h =>
          hrefused fun binding hmem => List.all_eq_true.1 h binding (List.mem_cons_of_mem _ hmem)
        rw [if_neg hall, List.takeWhile_cons_of_pos hfirst] at hunchanged
        exact bindAll_staged_ne hstaged (List.takeWhile_sublist _) (hunchanged rfl)
      · -- Either the first one is refused, and nothing is written, or nothing is refused.
        intro hrest hreject
        by_cases hfirst : store.accepts first = true
        · have hall : (first :: rest).all store.accepts = true :=
            List.all_eq_true.2 (List.forall_mem_cons.2 ⟨hfirst, hrest first rest rfl hfirst⟩)
          rw [if_pos hall] at hreject
          cases hreject
        · rw [List.takeWhile_cons_of_neg hfirst]
          rfl

/-! ### Two first votes -/

/-- A validator that votes for the first time. -/
def firstVoter : Address := .ofNat 20 1

/-- Another validator that votes for the first time. -/
def secondVoter : Address := .ofNat 20 2

/-- The hash of the block that both vote for. -/
def votedHash : Hash :=
  .ofNat 32 0x8641998106234453AA5F9D6A3178F4F7B812E00B817A776265DFDD31B93E29AA

/-- The signature that both extend their votes with, since they use the same secret key. -/
def votedSignature : Bytes :=
  Bytes.ofNat 32 0x79BE667EF9DCBBAC55A06295CE870B07029BFCDB2DCE28D959F2815B16F81798 ++
    Bytes.ofNat 32 1 ++ [0]

/-- The key that is recovered from the signature: the point that generates the curve. -/
def votedKey : Bytes :=
  4 :: (Bytes.ofNat 32 0x79BE667EF9DCBBAC55A06295CE870B07029BFCDB2DCE28D959F2815B16F81798 ++
    Bytes.ofNat 32 0x483ADA7726A3C4655DA4FBFC0E1108A8FD17B448A68554199C47D08FFB10D4B8)

/-- The valid extension of either of them. -/
def firstVote (voter : Address) : ValidExtension :=
  ⟨voter, votedSignature, .recovered votedKey⟩

/-- The valid extensions of both. -/
def bothVotes : List ValidExtension :=
  [firstVote firstVoter, firstVote secondVoter]

/-- A block that repeats the extensions of both votes. -/
def firstVotes : ProcessRequest where
  height := 2
  txs := [(aggregateOf bothVotes).encode]
  lastCommit :=
    { height := 1
      blockHash := votedHash
      votes := [⟨firstVoter, VoteExtension.encode ⟨votedSignature⟩⟩,
        ⟨secondVoter, VoteExtension.encode ⟨votedSignature⟩⟩] }

/-- An empty store that refuses to write the key of the second validator. -/
def secondRefused : HostStore where
  contents := .empty
  faults :=
    { read := fun _ => none
      write := fun key =>
        if key = (Identity.validator secondVoter).storeKey then some .lockPoisoned else none }

/-- The key is recovered from the signature. -/
theorem recover_votedSignature : Signature.recover votedHash votedSignature = .ok votedKey := by
  have hkey : (Signature.recover votedHash votedSignature).toOption = some votedKey := by
    decide +kernel
  cases hrecover : Signature.recover votedHash votedSignature with
  | error e => rw [hrecover] at hkey; cases hkey
  | ok key => rw [hrecover] at hkey; exact congrArg Except.ok (Option.some.inj hkey)

/-- The extension of a first vote is right. -/
theorem supports_firstVote {store : HostStore} {voter : Address}
    (hget : Bindings.get store (.validator voter) = .ok none) :
    Supports store votedHash ⟨voter, VoteExtension.encode ⟨votedSignature⟩⟩ (firstVote voter) where
  validator_eq := rfl
  decode_eq := VoteExtension.decode_encode (by decide +kernel)
  check_eq := Voting.checkSignature_eq_recovered_iff.2
    ⟨hget, recover_votedSignature⟩

/-- Where neither validator has a binding the extensions of both count. -/
theorem validExtensions_firstVotes {store : HostStore}
    (hfirst : Bindings.get store (.validator firstVoter) = .ok none)
    (hsecond : Bindings.get store (.validator secondVoter) = .ok none) :
    (validExtensions store firstVotes.lastCommit).run.value = .ok bothVotes := by
  refine validExtensions_eq_ok_iff.2 ?_
  refine .keep (Wire.write_ne_nil _) List.not_mem_nil (supports_firstVote hfirst) ?_
  exact .keep (Wire.write_ne_nil _) (by decide) (supports_firstVote hsecond) .nil

/-- The block teaches the keys of both validators. -/
theorem staged_firstVotes : staged {} secondRefused firstVotes =
    .ok [⟨.validator firstVoter, votedKey⟩, ⟨.validator secondVoter, votedKey⟩] := by
  refine staged_eq_ok_iff.2 ⟨bothVotes, bothVotes, validExtensions_firstVotes rfl rfl, ?_, rfl⟩
  exact .aggregated (Aggregate.decode_encode _) (List.cons_ne_nil _ _) (by decide)
    (List.Subset.refl _) (by decide) rfl

/-- Where the second of two keys cannot be written a block is rejected although the first one has
been written. -/
theorem rejected_and_changed :
    ((process {} firstVotes).run secondRefused).value.1 = .reject ∧
      ((process {} firstVotes).run secondRefused).value.2.contents ≠ secondRefused.contents := by
  have hfirst : secondRefused.accepts ⟨.validator firstVoter, votedKey⟩ = true := by decide
  have hsecond : ¬secondRefused.accepts ⟨.validator secondVoter, votedKey⟩ = true := by decide
  rw [value_process, staged_firstVotes]
  dsimp only
  constructor
  · exact if_neg fun hall => hsecond (List.all_eq_true.1 hall _ (by simp))
  · rw [List.takeWhile_cons_of_pos hfirst, List.takeWhile_cons_of_neg hsecond]
    exact bindAll_staged_ne staged_firstVotes (List.nil_sublist _)

end SecondFactor.Proposal
