import SecondFactor.Proofs.Proposal.Recheck
import SecondFactor.Proofs.Replicas

/-!
# Several Blocks on One Commit

When a height takes several rounds, replicas decide on several blocks that are built on the same
commit, and each block that is accepted is learned from at once, whether or not it is decided in the
end. Along such a run the store has always learned what the accepted blocks teach, and each block
gets the verdict that it gets alone (`decisions_proposals`, `after_proposals`). From this follow

- `proposals_commute`: the order of the blocks makes no difference;
- `stores_agree_iff`: a replica that has seen rounds which were not decided holds the same keys as
  one that has not exactly if the accepted blocks of these rounds list nobody new whom the decided
  block does not list, too.

The latter is not always the case, since a block need not list all valid extensions
(`undecided_round_remains`).
-/

namespace SecondFactor

namespace Proposal

variable {config : Config} {contents : Store} {valid : List ValidExtension} {known : List Binding}
  {request : ProcessRequest}

/-! ## One block -/

/-- From a block only keys are learned that its commit teaches. -/
theorem learnedFrom_subset_offered
    (hvalid : (validExtensions (.reliable contents) request.lastCommit).run.value = .ok valid) :
    learnedFrom config contents request ⊆ offered valid := by
  unfold learnedFrom
  split
  · exact List.nil_subset _
  · next bindings hstaged => exact staged_subset_offered hvalid hstaged

/-- Whatever is learned from a block in addition, no more is known than the commit teaches. -/
theorem append_learnedFrom_subset
    (hvalid : (validExtensions (.reliable contents) request.lastCommit).run.value = .ok valid)
    (hknown : known ⊆ offered valid) :
    known ++ learnedFrom config contents request ⊆ offered valid :=
  List.append_subset.2 ⟨hknown, learnedFrom_subset_offered hvalid⟩

/-- What is learned from one accepted block is learned from another one as well exactly if every
validator without a binding that the one lists is listed by the other. -/
theorem learnedFrom_subset_iff {decided : ProcessRequest}
    (hvalid : (validExtensions (.reliable contents) decided.lastCommit).run.value = .ok valid)
    (hcommit : request.lastCommit = decided.lastCommit)
    (haccept : verdictOn config contents decided = .accept) :
    learnedFrom config contents request ⊆ learnedFrom config contents decided ↔
      (verdictOn config contents request = .accept →
        ∀ entry ∈ listed request.txs,
          contents.get? (Identity.validator entry.validator).storeKey = none →
          ∃ other ∈ listed decided.txs, other.validator = entry.validator) := by
  obtain ⟨taught, htaught⟩ := verdictOn_eq_accept_iff.1 haccept
  rw [learnedFrom_of_staged htaught, verdictOn_eq_accept_iff]
  constructor
  · rintro hsubset ⟨bindings, hstaged⟩ entry hentry hunbound
    rw [learnedFrom_of_staged hstaged] at hsubset
    obtain ⟨key, -, hmem⟩ := exists_staged_of_mem_listed hstaged hentry hunbound
    -- The entry's binding is taught by the decided block, which therefore lists its validator.
    obtain ⟨vote, signature, hbinding⟩ := staged_of_mem htaught (hsubset hmem)
    exact ⟨_, hbinding.mem_listed, (Identity.validator.inj hbinding.identity_eq).symm⟩
  · intro hlisted binding hmem
    unfold learnedFrom at hmem
    split at hmem
    · cases hmem
    · next bindings hstaged =>
      obtain ⟨vote, signature, hbinding⟩ := staged_of_mem hstaged hmem
      have hunbound := (Bindings.get_eq_ok_iff.1 hbinding.get_eq).2
      rw [hbinding.identity_eq] at hunbound
      obtain ⟨other, hother, hvalidator⟩ :=
        hlisted ⟨bindings, hstaged⟩ _ hbinding.mem_listed hunbound
      obtain ⟨key, -, hmem'⟩ := exists_staged_of_mem_listed htaught hother (hvalidator ▸ hunbound)
      -- Both blocks teach a binding of this validator, and the commit teaches only one.
      have hsame := compatible_offered hvalid _ (staged_subset_offered hvalid htaught hmem')
        binding (staged_subset_offered (hcommit ▸ hvalid) hstaged hmem) (by
          rw [hbinding.identity_eq, hvalidator])
      exact hsame ▸ hmem'

end Proposal

namespace Node

open Proposal

variable {contents : Store} {commit : Commit} {valid : List ValidExtension}
  {requests : List ProcessRequest} {known : List Binding}

/-! ## A run of blocks -/

/-- The exchange about a block where some of what its commit teaches is known. -/
theorem exchange_process_known (node : Node) {request : ProcessRequest}
    (hvalid : (validExtensions (.reliable contents) request.lastCommit).run.value = .ok valid)
    (hknown : known ⊆ offered valid) :
    node.exchange (.reliable (contents.bindAll known)) (.process request) =
      ⟨.process request, .processed (verdictOn node.config contents request),
        contents.bindAll known,
        contents.bindAll (known ++ learnedFrom node.config contents request)⟩ := by
  rw [exchange_process, value_process_bindAll hvalid hknown]
  rfl

/-- From blocks on one commit only keys are learned that the commit teaches. -/
theorem flatMap_learnedFrom_subset {config : Config}
    (hvalid : (validExtensions (.reliable contents) commit).run.value = .ok valid)
    (hcommit : ∀ request ∈ requests, request.lastCommit = commit) :
    requests.flatMap (learnedFrom config contents) ⊆ offered valid := by
  intro binding hmem
  obtain ⟨request, hrequest, hlearned⟩ := List.mem_flatMap.1 hmem
  rw [← hcommit request hrequest] at hvalid
  exact learnedFrom_subset_offered hvalid hlearned

/-- After a run of blocks on one commit the store has learned from each of them. -/
theorem after_proposals (node : Node)
    (hvalid : (validExtensions (.reliable contents) commit).run.value = .ok valid)
    (hcommit : ∀ request ∈ requests, request.lastCommit = commit) (hknown : known ⊆ offered valid) :
    node.after (reliably (requests.map .process)) (contents.bindAll known) =
      contents.bindAll (known ++ requests.flatMap (learnedFrom node.config contents)) := by
  -- Each block adds what is learned from it to what is known, all of which the commit teaches.
  induction requests generalizing known with
  | nil => exact congrArg contents.bindAll (List.append_nil known).symm
  | cons request rest ih =>
    obtain ⟨rfl, hrest⟩ := List.forall_mem_cons.1 hcommit
    change node.after (reliably (rest.map .process))
      (node.exchange (.reliable (contents.bindAll known)) (.process request)).after = _
    rw [exchange_process_known node hvalid hknown,
      ih hrest (append_learnedFrom_subset hvalid hknown), List.flatMap_cons, List.append_assoc]

/-- In a run of blocks on one commit each block gets the verdict that it gets alone. -/
theorem decisions_proposals (node : Node)
    (hvalid : (validExtensions (.reliable contents) commit).run.value = .ok valid)
    (hcommit : ∀ request ∈ requests, request.lastCommit = commit) (hknown : known ⊆ offered valid) :
    decisions (node.history (reliably (requests.map .process)) (contents.bindAll known)) =
      requests.map fun request => (request, verdictOn node.config contents request) := by
  induction requests generalizing known with
  | nil => rfl
  | cons request rest ih =>
    obtain ⟨rfl, hrest⟩ := List.forall_mem_cons.1 hcommit
    change decisions (node.exchange (.reliable (contents.bindAll known)) (.process request) ::
      node.history (reliably (rest.map .process))
        (node.exchange (.reliable (contents.bindAll known)) (.process request)).after) = _
    rw [exchange_process_known node hvalid hknown, List.map_cons,
      ← ih hrest (append_learnedFrom_subset hvalid hknown)]
    rfl

/-- Blocks on one commit commute: on a store that does not fail each of them gets the verdict that
it gets alone, the store after all of them does not depend on their order, and a block that was
accepted is accepted again, without a write. -/
theorem proposals_commute (node : Node) (contents : Store) {commit : Commit}
    {requests : List ProcessRequest}
    (hcommit : ∀ request ∈ requests, request.lastCommit = commit) :
    let after := node.after (reliably (requests.map .process)) contents
    decisions (node.history (reliably (requests.map .process)) contents) =
        requests.map (fun request => (request, verdictOn node.config contents request)) ∧
      (∀ others : List ProcessRequest, others.Perm requests →
        node.after (reliably (others.map .process)) contents = after) ∧
      ∀ request ∈ requests, verdictOn node.config contents request = .accept →
        ((process node.config request).run (.reliable after)).value =
            (.accept, .reliable after) ∧
          AnnouncesOnly (fun _ => False) ((process node.config request).run (.reliable after)) := by
  intro after
  obtain ⟨valid, hvalid⟩ := exists_validExtensions contents commit
  have hnothing : ([] : List Binding) ⊆ offered valid := List.nil_subset _
  -- What is learned from all blocks, of which no two bindings disagree.
  let known := requests.flatMap (learnedFrom node.config contents)
  have hafter : after = contents.bindAll known := after_proposals node hvalid hcommit hnothing
  have hknown : known ⊆ offered valid := flatMap_learnedFrom_subset hvalid hcommit
  have hcompatible := (compatible_offered hvalid).subset hknown
  refine ⟨decisions_proposals node hvalid hcommit hnothing, fun others hperm => ?_,
    fun request hmem haccept => ?_⟩
  · have hothers : ∀ request ∈ others, request.lastCommit = commit :=
      fun request hmem => hcommit request (hperm.mem_iff.1 hmem)
    have hlearned := hperm.flatMap_right (learnedFrom node.config contents)
    refine (after_proposals node hvalid hothers hnothing).trans (Eq.trans ?_ hafter.symm)
    symm
    exact Store.bindAll_eq_of_mem_iff contents hcompatible fun _ => hlearned.mem_iff.symm
  · rw [← hcommit request hmem] at hvalid
    obtain ⟨bindings, hstaged⟩ := verdictOn_eq_accept_iff.1 haccept
    have hsubset : bindings ⊆ known := fun binding hbinding =>
      List.mem_flatMap.2 ⟨request, hmem, (learnedFrom_of_staged hstaged).symm ▸ hbinding⟩
    rw [hafter]
    refine ⟨?_, announcesOnly_process_known hvalid hknown hstaged hsubset⟩
    -- What the block teaches is known, so it makes no difference to write it again.
    rw [value_process_bindAll hvalid hknown, haccept, learnedFrom_of_staged hstaged,
      Store.bindAll_append_eq_left contents hcompatible hsubset]

/-! ### Two first votes, repeated by several blocks -/

/-- A block on the two first votes that repeats the extension of one voter only. -/
def soleVote (voter : Address) : ProcessRequest :=
  { firstVotes with txs := [(aggregateOf [firstVote voter]).encode] }

/-- It teaches the key of this voter. -/
theorem staged_soleVote {voter : Address} (h : firstVote voter ∈ bothVotes) :
    staged {} (.reliable .empty) (soleVote voter) = .ok [⟨.validator voter, votedKey⟩] := by
  refine staged_eq_ok_iff.2
    ⟨bothVotes, [firstVote voter], validExtensions_firstVotes rfl rfl, ?_, rfl⟩
  exact .aggregated (Aggregate.decode_encode _) (List.cons_ne_nil _ _) (by simp [aggregateOf])
    (List.cons_subset.2 ⟨h, List.nil_subset _⟩) (List.nodup_singleton _) rfl

theorem verdictOn_soleVote {voter : Address} (h : firstVote voter ∈ bothVotes) :
    verdictOn {} .empty (soleVote voter) = .accept :=
  verdictOn_eq_accept_iff.2 ⟨_, staged_soleVote h⟩

/-- A block with one of the votes and one with both are accepted in either order, and in either
order the same is learned. -/
theorem commute_first_votes :
    (∀ request ∈ [soleVote firstVoter, firstVotes],
      request.lastCommit = firstVotes.lastCommit) ∧
    decisions ((⟨{}, none⟩ : Node).history
        (reliably [.process (soleVote firstVoter), .process firstVotes]) .empty) =
      [(soleVote firstVoter, .accept), (firstVotes, .accept)] ∧
    (⟨{}, none⟩ : Node).after
        (reliably [.process firstVotes, .process (soleVote firstVoter)]) .empty =
      (⟨{}, none⟩ : Node).after
        (reliably [.process (soleVote firstVoter), .process firstVotes]) .empty := by
  have hcommit : ∀ request ∈ [soleVote firstVoter, firstVotes],
      request.lastCommit = firstVotes.lastCommit :=
    List.forall_mem_cons.2 ⟨rfl, List.forall_mem_singleton.2 rfl⟩
  obtain ⟨hdecisions, hperm, -⟩ := proposals_commute ⟨{}, none⟩ .empty hcommit
  refine ⟨hcommit, hdecisions.trans ?_, hperm [firstVotes, soleVote firstVoter] (.swap _ _ _)⟩
  rw [List.map_cons, List.map_cons, verdictOn_soleVote List.mem_cons_self, verdictOn_firstVotes]
  rfl

/-! ## Rounds that were not decided -/

/-- After blocks on the same commit a block gets the verdict that it gets without them, and both
what they teach and what it teaches has been learned. -/
theorem after_rounds (node : Node) (undecided : List ProcessRequest) {decided : ProcessRequest}
    (hvalid : (validExtensions (.reliable contents) decided.lastCommit).run.value = .ok valid)
    (hcommit : ∀ request ∈ undecided, request.lastCommit = decided.lastCommit) :
    let held := node.after (reliably (undecided.map .process)) contents
    verdictOn node.config held decided = verdictOn node.config contents decided ∧
      node.after (reliably [.process decided]) held =
        contents.bindAll (undecided.flatMap (learnedFrom node.config contents) ++
          learnedFrom node.config contents decided) := by
  intro held
  have hknown : undecided.flatMap (learnedFrom node.config contents) ⊆ offered valid :=
    flatMap_learnedFrom_subset hvalid hcommit
  have hheld : held = contents.bindAll (undecided.flatMap (learnedFrom node.config contents)) :=
    after_proposals node hvalid hcommit (List.nil_subset (offered valid))
  rw [hheld]
  constructor
  · rw [verdictOn, value_process_bindAll hvalid hknown]
  · exact congrArg Exchange.after (exchange_process_known node hvalid hknown)

/-- Where one replica has processed blocks of undecided rounds on the same commit and another has
not, both give a block the same verdict. If they accept it their stores are equal afterwards exactly
if every validator without a binding that an accepted one of the undecided blocks lists is listed by
the decided block, too. -/
theorem stores_agree_iff (config : Config) (signingKey otherKey : Option SecretKey)
    (contents : Store) {undecided : List ProcessRequest} {decided : ProcessRequest}
    (hcommit : ∀ request ∈ undecided, request.lastCommit = decided.lastCommit) :
    let node : Node := ⟨config, signingKey⟩
    let other : Node := ⟨config, otherKey⟩
    let held := node.after (reliably (undecided.map .process)) contents
    verdictOn config held decided = verdictOn config contents decided ∧
      (verdictOn config contents decided = .accept →
        (node.after (reliably [.process decided]) held =
            other.after (reliably [.process decided]) contents ↔
          ∀ request ∈ undecided, verdictOn config contents request = .accept →
            ∀ entry ∈ listed request.txs,
              contents.get? (Identity.validator entry.validator).storeKey = none →
              ∃ other ∈ listed decided.txs, other.validator = entry.validator)) := by
  intro node other held
  obtain ⟨valid, hvalid⟩ := exists_validExtensions contents decided.lastCommit
  let known := undecided.flatMap (learnedFrom config contents)
  have hknown : known ⊆ offered valid := flatMap_learnedFrom_subset hvalid hcommit
  have hnew : ∀ binding ∈ known, contents.get? binding.identity.storeKey = none :=
    fun binding hmem => get?_of_mem_offered hvalid (hknown hmem)
  have hcompatible : Store.Compatible (known ++ learnedFrom config contents decided) :=
    (compatible_offered hvalid).subset (append_learnedFrom_subset hvalid hknown)
  obtain ⟨hverdict, hheld⟩ := after_rounds node undecided hvalid hcommit
  obtain ⟨-, hother⟩ := after_rounds other [] hvalid nofun
  refine ⟨hverdict, fun haccept => ?_⟩
  -- The stores differ by what the undecided blocks have taught in addition.
  have hdiffer : node.after (reliably [.process decided]) held =
      other.after (reliably [.process decided]) contents ↔
        known ⊆ learnedFrom config contents decided := by
    refine Iff.trans ?_ (Store.bindAll_append_eq_iff hcompatible hnew)
    rw [hheld]
    exact Eq.congr_right hother
  rw [hdiffer]
  constructor
  · intro hsubset request hmem
    refine (learnedFrom_subset_iff hvalid (hcommit request hmem) haccept).1 fun binding hb => ?_
    exact hsubset (List.mem_flatMap.2 ⟨request, hmem, hb⟩)
  · intro hlisted binding hmem
    obtain ⟨request, hrequest, hlearned⟩ := List.mem_flatMap.1 hmem
    exact (learnedFrom_subset_iff hvalid (hcommit request hrequest) haccept).2
      (hlisted request hrequest) hlearned

/-- Of the blocks on the two first votes this one lists the one voter. -/
theorem listed_soleVote (voter : Address) :
    listed (soleVote voter).txs = [⟨voter, votedSignature⟩] := by
  simp only [soleVote, listed, Aggregate.decode_encode]
  rfl

/-- This one lists both. -/
theorem listed_firstVotes :
    listed firstVotes.txs = [⟨firstVoter, votedSignature⟩, ⟨secondVoter, votedSignature⟩] := by
  simp only [firstVotes, listed, Aggregate.decode_encode]
  rfl

/-- After a block with both votes it makes no difference that one replica has seen one with the
first vote only before. -/
theorem stores_agree_first_votes :
    let node : Node := ⟨{}, none⟩
    let held := node.after (reliably [.process (soleVote firstVoter)]) .empty
    (∀ request ∈ [soleVote firstVoter], request.lastCommit = firstVotes.lastCommit) ∧
      verdictOn {} .empty firstVotes = .accept ∧
      verdictOn {} held firstVotes = .accept ∧
      node.after (reliably [.process firstVotes]) held =
        node.after (reliably [.process firstVotes]) .empty := by
  intro node held
  have hcommit : ∀ request ∈ [soleVote firstVoter],
      request.lastCommit = firstVotes.lastCommit := List.forall_mem_singleton.2 rfl
  obtain ⟨hverdict, hagree⟩ := stores_agree_iff {} none none .empty hcommit
  refine ⟨hcommit, verdictOn_firstVotes, hverdict.trans verdictOn_firstVotes,
    (hagree verdictOn_firstVotes).2 ?_⟩
  intro request hmem _ entry hentry _
  -- Whom the first block lists the second one lists, too.
  obtain rfl := List.mem_singleton.1 hmem
  rw [listed_soleVote] at hentry
  obtain rfl := List.mem_singleton.1 hentry
  rw [listed_firstVotes]
  exact ⟨_, List.mem_cons_self, rfl⟩

/-- What has been learned in a round that was not decided remains: where one replica has seen a
block with the first vote only, both accept one with the second vote only, and afterwards they do
not hold the same keys. -/
theorem undecided_round_remains :
    let node : Node := ⟨{}, none⟩
    let held := node.after (reliably [.process (soleVote firstVoter)]) .empty
    (soleVote firstVoter).lastCommit = (soleVote secondVoter).lastCommit ∧
      verdictOn {} held (soleVote secondVoter) = .accept ∧
      verdictOn {} .empty (soleVote secondVoter) = .accept ∧
      node.after (reliably [.process (soleVote secondVoter)]) held ≠
        node.after (reliably [.process (soleVote secondVoter)]) .empty := by
  intro node held
  have hsole : firstVote firstVoter ∈ bothVotes := List.mem_cons_self
  have hother : firstVote secondVoter ∈ bothVotes := List.mem_cons_of_mem _ List.mem_cons_self
  have hvalid : (validExtensions (.reliable .empty) (soleVote secondVoter).lastCommit).run.value =
      .ok bothVotes := validExtensions_firstVotes rfl rfl
  obtain ⟨hverdict, hheld⟩ :=
    after_rounds node [soleVote firstVoter] hvalid (List.forall_mem_singleton.2 rfl)
  obtain ⟨-, hfresh⟩ := after_rounds node [] hvalid nofun
  refine ⟨rfl, hverdict.trans (verdictOn_soleVote hother), verdictOn_soleVote hother, ?_⟩
  intro heq
  have hagree := hheld.symm.trans (heq.trans hfresh)
  rw [List.flatMap_singleton, learnedFrom_of_staged (staged_soleVote hsole),
    learnedFrom_of_staged (staged_soleVote hother)] at hagree
  -- If the stores were equal the second block would have taught the first key, too.
  have hcompatible : Store.Compatible
      ([⟨.validator firstVoter, votedKey⟩] ++ [⟨.validator secondVoter, votedKey⟩]) :=
    Store.compatible_of_nodup (by decide)
  have hsubset := (Store.bindAll_append_eq_iff hcompatible fun _ _ => Store.get?_empty _).1 hagree
  have hidentity := congrArg Binding.identity (List.mem_singleton.1 (hsubset List.mem_cons_self))
  exact absurd hidentity (by decide)

end Node

end SecondFactor
