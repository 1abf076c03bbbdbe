import SecondFactor.Proofs.Proposal.Recheck
import SecondFactor.Proofs.Proposal.Selection

/-!
# The Order of the Votes

The extensions that count are found in the order of the votes, and this is the order in which a
proposer lists them. Replicas only look them up by validator. It therefore makes no difference to
them how the votes of different validators are interleaved in a commit, as long as the votes of
each single validator, of which only the first one with an extension counts, stay in their order.
The main statement is `process_interleaved`.
-/

namespace SecondFactor.Proposal

variable {store : HostStore} {hash : Hash} {votes others : List Vote}

/-! ## Interleavings -/

/-- The votes of a validator, in order. -/
def votesOf (validator : Address) (votes : List Vote) : List Vote :=
  votes.filter fun vote => vote.validator = validator

/-- `Interleaved votes others`: `others` are the same votes in another order, in which those of each
validator follow one another as they do in `votes`. -/
structure Interleaved (votes others : List Vote) : Prop where
  /-- The votes are the same, and as often there. -/
  perm : others.Perm votes
  /-- The votes of a validator stand in the same order. -/
  votesOf_eq : ∀ validator, votesOf validator others = votesOf validator votes

namespace Interleaved

/-- Where each validator has the same votes in the same order there are no others. -/
theorem of_votesOf (h : ∀ validator, votesOf validator others = votesOf validator votes) :
    Interleaved votes others where
  perm := by
    -- A vote is counted among those of its validator.
    have hcount : ∀ (list : List Vote) (vote : Vote),
        (votesOf vote.validator list).count vote = list.count vote :=
      fun _ _ => List.count_filter (decide_eq_true rfl)
    refine List.perm_iff_count.2 fun vote => ?_
    rw [← hcount others, h, hcount]
  votesOf_eq := h

/-- Two votes of different validators may trade places. -/
theorem swap {one other : Vote} (hne : one.validator ≠ other.validator) (rest : List Vote) :
    Interleaved (one :: other :: rest) (other :: one :: rest) := by
  refine of_votesOf fun validator => ?_
  by_cases hone : one.validator = validator
  · have hother : other.validator ≠ validator := fun heq => hne (hone.trans heq.symm)
    simp [votesOf, hone, hother]
  · simp [votesOf, List.filter_cons, hone]

/-- Every validator has the same first vote with an extension. -/
theorem firstExtended?_eq (h : Interleaved votes others) (validator : Address) :
    firstExtended? others validator = firstExtended? votes validator := by
  -- It is looked for among the votes of the validator.
  have hfind : ∀ list : List Vote, firstExtended? list validator =
      (votesOf validator list).find? fun vote => Carries vote := by
    intro list
    rw [votesOf, List.find?_filter, firstExtended?]
    simp only [decide_eq_true_eq, and_comm]
  rw [hfind, hfind, h.votesOf_eq]

end Interleaved

/-! ## The extensions that count -/

/-- An extension counts exactly if the first vote with an extension of its validator supports it. -/
theorem mem_rightExtensions_iff_first {extension : ValidExtension} :
    extension ∈ rightExtensions store hash Carries votes ↔
      ∃ vote, firstExtended? votes extension.validator = some vote ∧
        Supports store hash vote extension := by
  constructor
  · exact exists_first_of_mem_rightExtensions
  · rintro ⟨vote, hfirst, hsupports⟩
    exact (mem_rightExtensions_iff_of_first hfirst).2 (rightExtension?_eq_some_iff.2 hsupports)

/-- No extension counts twice. -/
theorem nodup_rightExtensions (store : HostStore) (hash : Hash) (votes : List Vote) :
    (rightExtensions store hash Carries votes).Nodup := by
  refine (pairwise_rightExtensions votes).imp fun hlt heq => ?_
  rw [heq] at hlt
  exact lt_irrefl _ hlt

/-- The same extensions count, in another order. -/
theorem Interleaved.perm_rightExtensions (h : Interleaved votes others) :
    (rightExtensions store hash Carries others).Perm
      (rightExtensions store hash Carries votes) := by
  refine (List.perm_ext_iff_of_nodup (nodup_rightExtensions store hash others)
    (nodup_rightExtensions store hash votes)).2 fun extension => ?_
  rw [mem_rightExtensions_iff_first, mem_rightExtensions_iff_first, h.firstExtended?_eq]

/-! ## The block -/

/-- Whether a block passes does not depend on the order in which the valid extensions were found,
and neither do the extensions that it repeats. -/
theorem Passes.of_perm {config : Config} {valid found used : List ValidExtension}
    {txs : List Bytes} (h : Passes config valid txs used) (hperm : valid.Perm found) :
    Passes config found txs used := by
  cases h with
  | plain hvalid htxs =>
    subst hvalid
    exact .plain hperm.nil_eq.symm htxs
  | aggregated hdecode hne hlimit hused hdistinct hentries =>
    exact .aggregated hdecode hne hlimit (List.Subset.trans hused hperm.subset) hdistinct hentries

/-- A block teaches the same in either order of the votes. -/
theorem Interleaved.staged_eq_ok_iff {config : Config} {contents : Store} {height : UInt64}
    {txs : List Bytes} {commit : Commit} {bindings : List Binding}
    (h : Interleaved commit.votes others) :
    staged config (.reliable contents) ⟨height, txs, { commit with votes := others }⟩ =
        .ok bindings ↔
      staged config (.reliable contents) ⟨height, txs, commit⟩ = .ok bindings := by
  have hperm : (rightExtensions (.reliable contents) commit.blockHash Carries others).Perm
      (rightExtensions (.reliable contents) commit.blockHash Carries commit.votes) :=
    h.perm_rightExtensions
  rw [Proposal.staged_eq_ok_iff, Proposal.staged_eq_ok_iff]
  constructor
  · rintro ⟨valid, used, hvalid, hpasses, hlearned⟩
    obtain rfl := Except.ok.inj ((value_validExtensions contents _).symm.trans hvalid)
    exact ⟨_, used, value_validExtensions contents commit, hpasses.of_perm hperm, hlearned⟩
  · rintro ⟨valid, used, hvalid, hpasses, hlearned⟩
    obtain rfl := Except.ok.inj ((value_validExtensions contents _).symm.trans hvalid)
    exact ⟨_, used, value_validExtensions contents _, hpasses.of_perm hperm.symm, hlearned⟩

/-- On a store that does not fail a block gets the same verdict and leaves the same store whatever
the order of the votes in the last commit, if only those of each single validator stay in their
order. -/
theorem process_interleaved (config : Config) (contents : Store) (height : UInt64)
    (txs : List Bytes) (commit : Commit) {others : List Vote}
    (hvotes : Interleaved commit.votes others) :
    ((process config ⟨height, txs, { commit with votes := others }⟩).run
        (.reliable contents)).value =
      ((process config ⟨height, txs, commit⟩).run (.reliable contents)).value := by
  rw [value_process_reliable, value_process_reliable]
  cases hbefore : staged config (.reliable contents) ⟨height, txs, commit⟩ with
  | ok bindings => rw [hvotes.staged_eq_ok_iff.2 hbefore]
  | error e =>
    -- A block that does not pass in the one order does not pass in the other one.
    cases hafter : staged config (.reliable contents)
        ⟨height, txs, { commit with votes := others }⟩ with
    | error _ => rfl
    | ok bindings =>
      rw [hvotes.staged_eq_ok_iff.1 hafter] at hbefore
      cases hbefore

/-- A block that lists two first votes is accepted, and both keys are learned, also where the votes
stand in the other order. -/
theorem process_first_votes_swapped :
    Interleaved firstVotes.lastCommit.votes firstVotes.lastCommit.votes.reverse ∧
      ((process {} ⟨firstVotes.height, firstVotes.txs,
          { firstVotes.lastCommit with votes := firstVotes.lastCommit.votes.reverse }⟩).run
            (.reliable .empty)).value =
        (.accept, .reliable (Store.empty.bindAll
          [⟨.validator firstVoter, votedKey⟩, ⟨.validator secondVoter, votedKey⟩])) := by
  have hvotes : Interleaved firstVotes.lastCommit.votes firstVotes.lastCommit.votes.reverse :=
    .swap (by decide) []
  have hvalue := value_process_reliable {} .empty firstVotes
  rw [staged_firstVotes_reliable] at hvalue
  refine ⟨hvotes, ?_⟩
  exact (process_interleaved {} .empty firstVotes.height firstVotes.txs firstVotes.lastCommit
    hvotes).trans hvalue

end SecondFactor.Proposal
