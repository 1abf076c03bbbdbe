import Mathlib.Data.List.Nodup
import Mathlib.Data.List.Perm.Subperm
import SecondFactor.Proofs.Proposal.Extensions
import SecondFactor.Proposal.Process

/-!
# Laws of the Check of a Block

The check of a block goes through the entries of its aggregate and uses up one valid extension for
each. The relation `Passes` says the same without the loop: a block passes where there is nothing to
aggregate and nothing that reads as an aggregate, or where its aggregate consists of the entries
of some valid extensions, each repeated once. The main statements are:

- `lessons_eq_ok_iff`, `check_eq_ok_iff`: the loop and the whole check accept what passes;
- `staged_eq_ok_iff`: the bindings to be written are those that the repeated extensions teach;
- `Staged`, `staged_of_mem`: each of them stands for a validator that has none, and its key is
  recovered from the validator's own vote;
- `nodup_staged`: they are of different validators.
-/

namespace SecondFactor.Proposal

/-! ## Entries and valid extensions -/

/-- Among extensions of different validators one is found by its validator. -/
theorem find?_validator {valid : List ValidExtension} {extension : ValidExtension}
    (hnodup : (valid.map ValidExtension.validator).Nodup) (h : extension ∈ valid) :
    valid.find? (fun other => other.validator = extension.validator) = some extension := by
  induction valid with
  | nil => cases h
  | cons head rest ih =>
    obtain ⟨hhead, hrest⟩ := List.nodup_cons.1 hnodup
    rcases List.mem_cons.1 h with rfl | hmem
    · simp
    · have hne : head.validator ≠ extension.validator := by
        intro heq
        exact hhead (List.mem_map.2 ⟨extension, hmem, heq.symm⟩)
      simpa [hne] using ih hrest hmem

/-- Taking the extensions of one validator out keeps the others apart. -/
theorem nodup_validators_filter {valid : List ValidExtension}
    (hnodup : (valid.map ValidExtension.validator).Nodup) (p : ValidExtension → Bool) :
    ((valid.filter p).map ValidExtension.validator).Nodup :=
  hnodup.sublist (List.filter_sublist.map _)

/-- Entries that pass are those of valid extensions, each used once. -/
theorem exists_used_of_lessons {entries : List AggregateEntry} {valid : List ValidExtension}
    {bindings : List Binding} (h : lessons entries valid = .ok bindings) :
    ∃ used : List ValidExtension, used ⊆ valid ∧
      (used.map ValidExtension.validator).Nodup ∧
      used.map ValidExtension.entry = entries ∧
      used.flatMap ValidExtension.learned = bindings := by
  -- With each entry the extension that it repeats is taken out of those that are left.
  induction entries generalizing valid bindings with
  | nil =>
    obtain rfl := Except.ok.inj h
    exact ⟨[], List.nil_subset _, .nil, rfl, rfl⟩
  | cons entry rest ih =>
    rw [lessons] at h
    split at h
    · cases h
    · next extension hfind =>
      have hmem : extension ∈ valid := List.mem_of_find?_eq_some hfind
      have hvalidator : extension.validator = entry.validator := by
        simpa using List.find?_some hfind
      split at h
      · cases h
      · next hsignature =>
        have hentry : extension.entry = entry :=
          congrArg₂ AggregateEntry.mk hvalidator (not_not.1 hsignature)
        split at h
        · next others hothers =>
          obtain rfl := Except.ok.inj h
          obtain ⟨used, hused, hdistinct, rfl, rfl⟩ := ih hothers
          refine ⟨extension :: used, ?_, ?_, ?_, rfl⟩
          · exact List.cons_subset.2 ⟨hmem, fun _ hin => (List.mem_filter.1 (hused hin)).1⟩
          · refine List.nodup_cons.2 ⟨fun hin => ?_, hdistinct⟩
            obtain ⟨other, hother, heq⟩ := List.mem_map.1 hin
            -- Extensions of the same validator were taken out before the rest was checked.
            have hne := (List.mem_filter.1 (hused hother)).2
            simp [heq, hvalidator] at hne
          · rw [List.map_cons, hentry]
        · cases h

/-- The entries of valid extensions of different validators pass, and they teach what the
extensions teach. -/
theorem lessons_map_entry {used valid : List ValidExtension}
    (hnodup : (valid.map ValidExtension.validator).Nodup) (hused : used ⊆ valid)
    (hdistinct : (used.map ValidExtension.validator).Nodup) :
    lessons (used.map ValidExtension.entry) valid =
      .ok (used.flatMap ValidExtension.learned) := by
  induction used generalizing valid with
  | nil => rfl
  | cons extension rest ih =>
    -- The first extension is found by its validator, and the others are left for the rest.
    obtain ⟨hmem, hrest⟩ := List.cons_subset.1 hused
    obtain ⟨hhead, hdistinct⟩ := List.nodup_cons.1 hdistinct
    have hfind : valid.find? (fun other => other.validator = extension.entry.validator) =
        some extension := find?_validator hnodup hmem
    have hothers := ih (nodup_validators_filter hnodup
      fun other => other.validator ≠ extension.entry.validator) (fun other hother => by
        have hne : other.validator ≠ extension.entry.validator := fun heq =>
          hhead (List.mem_map.2 ⟨other, hother, heq⟩)
        exact List.mem_filter.2 ⟨hrest hother, decide_eq_true hne⟩) hdistinct
    rw [List.map_cons, lessons, hfind]
    simp only [hothers, List.flatMap_cons]
    exact if_neg (not_not.2 rfl)

/-- The entries of an aggregate pass exactly if they are those of valid extensions, each of which
is used once; what they teach is what these extensions teach. -/
theorem lessons_eq_ok_iff {entries : List AggregateEntry} {valid : List ValidExtension}
    {bindings : List Binding} (hnodup : (valid.map ValidExtension.validator).Nodup) :
    lessons entries valid = .ok bindings ↔
      ∃ used : List ValidExtension, used ⊆ valid ∧
        (used.map ValidExtension.validator).Nodup ∧
        used.map ValidExtension.entry = entries ∧
        used.flatMap ValidExtension.learned = bindings := by
  refine ⟨exists_used_of_lessons, ?_⟩
  rintro ⟨used, hused, hdistinct, rfl, rfl⟩
  exact lessons_map_entry hnodup hused hdistinct

/-! ## The check of a block -/

/-- The entries that a block lists: those of the aggregate that it starts with, if it does. -/
def listed : List Bytes → List AggregateEntry
  | [] => []
  | first :: _ =>
    match Aggregate.decode first with
    | .ok aggregate => aggregate.entries
    | .error _ => []

/-- `Passes config valid txs used`: where the extensions in `valid` are valid a block with the
transactions `txs` is in order, and it repeats the extensions in `used`. -/
inductive Passes (config : Config) (valid : List ValidExtension) :
    List Bytes → List ValidExtension → Prop
  /-- Without valid extensions nothing may be there that reads as an aggregate. -/
  | plain {txs} (hvalid : valid = []) (htxs : startsWithAggregate txs = false) :
      Passes config valid txs []
  /-- Otherwise an aggregate of some of them comes first. -/
  | aggregated {first rest aggregate used} (hdecode : Aggregate.decode first = .ok aggregate)
      (hne : aggregate.entries ≠ [])
      (hlimit : aggregate.entries.length ≤ config.maxAggregateEntries.toNat)
      (hused : used ⊆ valid) (hdistinct : (used.map ValidExtension.validator).Nodup)
      (hentries : used.map ValidExtension.entry = aggregate.entries) :
      Passes config valid (first :: rest) used

/-- The entries of a block that passes are those of the extensions that it repeats. -/
theorem Passes.listed_eq {config : Config} {valid used : List ValidExtension} {txs : List Bytes}
    (h : Passes config valid txs used) : listed txs = used.map ValidExtension.entry := by
  cases h with
  | plain _ htxs =>
    unfold startsWithAggregate at htxs
    split at htxs
    · rfl
    · next first _ =>
      rw [listed]
      cases hdecode : Aggregate.decode first with
      | error e => rfl
      | ok aggregate => rw [hdecode] at htxs; cases htxs
  | aggregated hdecode _ _ _ _ hentries => rw [listed, hdecode, hentries]

/-- A block that passes repeats valid extensions only. -/
theorem Passes.used_subset {config : Config} {valid used : List ValidExtension}
    {txs : List Bytes} (h : Passes config valid txs used) : used ⊆ valid := by
  cases h with
  | plain => exact List.nil_subset _
  | aggregated _ _ _ hused => exact hused

/-- A block that passes repeats the extension of a validator once. -/
theorem Passes.nodup_validators {config : Config} {valid used : List ValidExtension}
    {txs : List Bytes} (h : Passes config valid txs used) :
    (used.map ValidExtension.validator).Nodup := by
  cases h with
  | plain => exact .nil
  | aggregated _ _ _ _ hdistinct => exact hdistinct

/-- The bindings of a lesson, if there is one. -/
def taught : Option Lesson → List Binding
  | none => []
  | some lesson => lesson.bindings

/-- An aggregate that is in order has as many entries as it may have and repeats extensions, of
which there are then enough. -/
theorem checkAggregate_eq_ok_iff {config : Config} {aggregate : Aggregate}
    {valid : List ValidExtension} {lesson : Lesson}
    (hnodup : (valid.map ValidExtension.validator).Nodup) :
    checkAggregate config aggregate valid = .ok lesson ↔
      aggregate.entries ≠ [] ∧
        aggregate.entries.length ≤ config.maxAggregateEntries.toNat ∧
        ∃ used : List ValidExtension, used ⊆ valid ∧
          (used.map ValidExtension.validator).Nodup ∧
          used.map ValidExtension.entry = aggregate.entries ∧
          lesson = ⟨aggregate.size, used.flatMap ValidExtension.learned⟩ := by
  unfold checkAggregate Aggregate.isEmpty Aggregate.size
  constructor
  · intro h
    split at h
    · cases h
    · next hne =>
      split at h
      · cases h
      · next hlimit =>
        split at h
        · cases h
        · split at h
          · next bindings hlessons =>
            obtain rfl := Except.ok.inj h
            obtain ⟨used, hused, hdistinct, hentries, rfl⟩ :=
              (lessons_eq_ok_iff hnodup).1 hlessons
            have hentries_ne : aggregate.entries ≠ [] := by simpa using hne
            exact ⟨hentries_ne, Nat.le_of_not_lt hlimit, used, hused, hdistinct, hentries, rfl⟩
          · cases h
  · rintro ⟨hne, hlimit, used, hused, hdistinct, hentries, rfl⟩
    have henough : aggregate.entries.length ≤ valid.length := by
      -- Different members of a list are at most as many as the list is long.
      rw [← hentries, List.length_map]
      exact (List.subperm_of_subset (List.Nodup.of_map _ hdistinct) hused).length_le
    have hlessons := (lessons_eq_ok_iff hnodup).2 ⟨used, hused, hdistinct, hentries, rfl⟩
    rw [if_neg (by simpa using hne), if_neg (Nat.not_lt.2 hlimit),
      if_neg (Nat.not_lt.2 henough), hlessons]

/-- A block is in order exactly if it passes, and it teaches what the extensions that it repeats
teach. -/
theorem check_eq_ok_iff (config : Config) (txs : List Bytes) {valid : List ValidExtension}
    {bindings : List Binding} (hnodup : (valid.map ValidExtension.validator).Nodup) :
    (∃ lesson, check config txs valid = .ok lesson ∧ taught lesson = bindings) ↔
      ∃ used, Passes config valid txs used ∧
        used.flatMap ValidExtension.learned = bindings := by
  unfold check
  constructor
  · rintro ⟨lesson, h, rfl⟩
    split at h
    · next hvalid =>
      split at h
      · cases h
      · next htxs =>
        obtain rfl := Except.ok.inj h
        exact ⟨[], .plain hvalid (by simpa using htxs), rfl⟩
    · split at h
      · cases h
      · split at h
        · cases h
        · next aggregate hdecode =>
          split at h
          · next lesson hlesson =>
            obtain rfl := Except.ok.inj h
            obtain ⟨hne, hlimit, used, hused, hdistinct, hentries, rfl⟩ :=
              (checkAggregate_eq_ok_iff hnodup).1 hlesson
            exact ⟨used, .aggregated hdecode hne hlimit hused hdistinct hentries, rfl⟩
          · cases h
  · rintro ⟨used, hpasses, rfl⟩
    cases hpasses with
    | plain hvalid htxs =>
      refine ⟨none, ?_, rfl⟩
      rw [if_pos hvalid, htxs]
      rfl
    | @aggregated _ _ aggregate _ hdecode hne hlimit hused hdistinct hentries =>
      -- An entry stands for a valid extension, so the block is not taken for a plain one.
      have hvalid : valid ≠ [] := by
        rintro rfl
        obtain rfl := List.subset_nil.1 hused
        exact hne hentries.symm
      have hlesson := (checkAggregate_eq_ok_iff hnodup).2
        ⟨hne, hlimit, used, hused, hdistinct, hentries, rfl⟩
      refine ⟨some ⟨aggregate.size, used.flatMap ValidExtension.learned⟩, ?_, rfl⟩
      rw [if_neg hvalid]
      simp only [hdecode, hlesson]

/-- The bindings that are to be written when a block is processed, if it is in order. -/
def staged (config : Config) (store : HostStore) (request : ProcessRequest) :
    Except Error (List Binding) :=
  match (validExtensions store request.lastCommit).run.value with
  | .error e => .error e
  | .ok valid =>
    match check config request.txs valid with
    | .error e => .error e
    | .ok lesson => .ok (taught lesson)

/-- Bindings are staged exactly if the block passes. -/
theorem staged_eq_ok_iff {config : Config} {store : HostStore} {request : ProcessRequest}
    {bindings : List Binding} :
    staged config store request = .ok bindings ↔
      ∃ valid used, (validExtensions store request.lastCommit).run.value = .ok valid ∧
        Passes config valid request.txs used ∧
        used.flatMap ValidExtension.learned = bindings := by
  unfold staged
  cases hvalid : (validExtensions store request.lastCommit).run.value with
  | error e => simp
  | ok valid =>
    have hnodup := (validExtensions_eq_ok_iff.1 hvalid).nodup_validators
    dsimp only
    constructor
    · intro h
      split at h
      · cases h
      · next lesson hlesson =>
        obtain ⟨used, hpasses, hlearned⟩ :=
          (check_eq_ok_iff config request.txs hnodup).1 ⟨lesson, hlesson, Except.ok.inj h⟩
        exact ⟨valid, used, rfl, hpasses, hlearned⟩
    · rintro ⟨_, used, heq, hpasses, hlearned⟩
      obtain rfl := Except.ok.inj heq
      obtain ⟨lesson, hlesson, rfl⟩ :=
        (check_eq_ok_iff config request.txs hnodup).2 ⟨used, hpasses, hlearned⟩
      rw [hlesson]

/-! ## What is staged -/

/-- The extensions of different validators teach bindings of different identities. -/
theorem nodup_learned {used : List ValidExtension}
    (hdistinct : (used.map ValidExtension.validator).Nodup) :
    ((used.flatMap ValidExtension.learned).map Binding.identity).Nodup := by
  -- Each extension teaches one binding, of its own validator, or none.
  have hsublist : ((used.flatMap ValidExtension.learned).map Binding.identity).Sublist
      ((used.map ValidExtension.validator).map Identity.validator) := by
    induction used with
    | nil => exact .slnil
    | cons extension rest ih =>
      have hrest := ih (List.nodup_cons.1 hdistinct).2
      rw [List.flatMap_cons, List.map_append, ValidExtension.learned]
      cases extension.check with
      | bound => exact hrest.cons _
      | recovered key => exact hrest.cons_cons _
  have hinjective : Function.Injective Identity.validator := fun _ _ h => Identity.validator.inj h
  exact (hdistinct.map hinjective).sublist hsublist

/-- What the check of a block makes sure of for each binding that is to be written: its identity is
a validator without a binding that votes in the last commit and stands in the aggregate with the
signature of its vote, from which the key is recovered. -/
structure Staged (store : HostStore) (request : ProcessRequest) (binding : Binding)
    (vote : Vote) (signature : Bytes) : Prop where
  /-- The validator votes in the last commit. -/
  mem_votes : vote ∈ request.lastCommit.votes
  /-- The binding is the validator's. -/
  identity_eq : binding.identity = .validator vote.validator
  /-- The signature is the one of the vote. -/
  decode_eq : VoteExtension.decode vote.extension = .ok ⟨signature⟩
  /-- The validator and the signature stand in the aggregate. -/
  mem_listed : ⟨vote.validator, signature⟩ ∈ listed request.txs
  /-- The store was read, and nothing is bound. -/
  get_eq : Bindings.get store binding.identity = .ok none
  /-- The key is recovered from the signature. -/
  recover_eq : Signature.recover request.lastCommit.blockHash signature = .ok binding.publicKey
  /-- The signature verifies with the key. -/
  verify_eq : Signature.verify binding.publicKey request.lastCommit.blockHash
    (Signature.stripRecoveryByte signature) = true

variable {config : Config} {store : HostStore} {request : ProcessRequest}
  {bindings : List Binding} {binding : Binding}

/-- Every staged binding is one that the check has made sure of. -/
theorem staged_of_mem (h : staged config store request = .ok bindings) (hmem : binding ∈ bindings) :
    ∃ vote signature, Staged store request binding vote signature := by
  obtain ⟨valid, used, hvalid, hpasses, rfl⟩ := staged_eq_ok_iff.1 h
  obtain ⟨extension, hextension, hlearned⟩ := List.mem_flatMap.1 hmem
  -- The binding is taught by an extension, which is that of a vote.
  obtain ⟨vote, hvote, hsupports⟩ :=
    (validExtensions_eq_ok_iff.1 hvalid).exists_supports (hpasses.used_subset hextension)
  have hcheck := hsupports.check_eq
  unfold ValidExtension.learned at hlearned
  split at hlearned
  · cases hlearned
  · next key hkey =>
    obtain rfl := List.mem_singleton.1 hlearned
    rw [hkey] at hcheck
    obtain ⟨hget, hrecover⟩ := Voting.checkSignature_eq_recovered_iff.1 hcheck
    have hlisted : extension.entry ∈ listed request.txs := by
      rw [hpasses.listed_eq]
      exact List.mem_map_of_mem hextension
    rw [ValidExtension.entry, hsupports.validator_eq] at hlisted
    rw [hsupports.validator_eq]
    exact ⟨vote, extension.signature, hvote, rfl, hsupports.decode_eq, hlisted, hget, hrecover,
      Signature.verify_stripRecoveryByte hrecover⟩

/-- The staged bindings are of different identities. -/
theorem nodup_staged (h : staged config store request = .ok bindings) :
    (bindings.map Binding.identity).Nodup := by
  obtain ⟨valid, used, -, hpasses, rfl⟩ := staged_eq_ok_iff.1 h
  exact nodup_learned hpasses.nodup_validators

/-- A listed validator that has no binding is staged. -/
theorem exists_staged_of_mem_listed (h : staged config store request = .ok bindings)
    {entry : AggregateEntry} (hmem : entry ∈ listed request.txs)
    (hunbound : store.contents.get? (Identity.validator entry.validator).storeKey = none) :
    ∃ key, Signature.recover request.lastCommit.blockHash entry.signature = .ok key ∧
      ⟨.validator entry.validator, key⟩ ∈ bindings := by
  obtain ⟨valid, used, hvalid, hpasses, rfl⟩ := staged_eq_ok_iff.1 h
  rw [hpasses.listed_eq] at hmem
  obtain ⟨extension, hextension, rfl⟩ := List.mem_map.1 hmem
  obtain ⟨vote, -, hsupports⟩ :=
    (validExtensions_eq_ok_iff.1 hvalid).exists_supports (hpasses.used_subset hextension)
  have hcheck := hsupports.check_eq
  rw [← hsupports.validator_eq] at hcheck
  cases hkind : extension.check with
  | bound =>
    -- Without a new key the signature was checked against a bound one.
    rw [hkind] at hcheck
    obtain ⟨key, hget, -⟩ := Voting.checkSignature_eq_bound_iff.1 hcheck
    have hbound := (Bindings.get_eq_ok_iff.1 hget).2
    rw [show extension.entry.validator = extension.validator from rfl, hbound] at hunbound
    cases hunbound
  | recovered key =>
    rw [hkind] at hcheck
    obtain ⟨-, hrecover⟩ := Voting.checkSignature_eq_recovered_iff.1 hcheck
    refine ⟨key, hrecover, List.mem_flatMap.2 ⟨extension, hextension, ?_⟩⟩
    rw [ValidExtension.learned, hkind]
    exact List.mem_singleton.2 rfl

end SecondFactor.Proposal
