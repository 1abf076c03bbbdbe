import SecondFactor.Proofs.Proposal.Prepare
import SecondFactor.Proofs.Voting.Gossip

/-!
# Which Votes Count

The search for the valid extensions goes through the votes of a commit with the validators that it
has seen at hand. This module says without the search what it finds (`value_validExtensions`): a
vote counts if it carries an extension, no earlier vote of its validator does, and the extension is
right. The main statements are:

- `prepared_first_extensions`: the proposer aggregates these extensions in the order of the votes;
  they are those of the validators' first votes exactly if no extension counts that comes after a
  vote of the same validator without one;
- `counted_iff_accepted`: an extension counts exactly if it is accepted while the height is voted
  on.
-/

namespace SecondFactor.Proposal

variable {store : HostStore} {hash : Hash} {contents : Store}

/-! ## The extension of one vote -/

/-- The extension of a vote, if it can be read and its signature passes the check. -/
def rightExtension? (store : HostStore) (hash : Hash) (vote : Vote) : Option ValidExtension :=
  match VoteExtension.decode vote.extension with
  | .error _ => none
  | .ok extension =>
    match Voting.checkSignature store vote.validator hash extension.signature with
    | .ok check => some ⟨vote.validator, extension.signature, check⟩
    | .error _ => none

/-- The right extension of a vote is the one that the vote supports. -/
theorem rightExtension?_eq_some_iff {vote : Vote} {extension : ValidExtension} :
    rightExtension? store hash vote = some extension ↔ Supports store hash vote extension := by
  unfold rightExtension?
  constructor
  · intro h
    split at h
    · cases h
    · next decoded hdecode =>
      split at h
      · next check hcheck =>
        cases h
        exact ⟨rfl, hdecode, hcheck⟩
      · cases h
  · intro h
    rw [h.decode_eq]
    dsimp only
    rw [h.check_eq, ← h.validator_eq]

/-- On a store that does not fail examining a vote finds its extension if it is right. -/
theorem value_examine_eq_rightExtension? (contents : Store) (hash : Hash) (vote : Vote) :
    (examine (.reliable contents) hash vote).run.value =
      .ok (rightExtension? (.reliable contents) hash vote) := by
  rw [value_examine, rightExtension?]
  cases VoteExtension.decode vote.extension with
  | error e => rfl
  | ok extension =>
    dsimp only
    cases hcheck : Voting.checkSignature (.reliable contents) vote.validator hash
        extension.signature with
    | ok check => rfl
    | error e =>
      cases e
      case store e =>
        exact absurd hcheck (Voting.checkSignature_ne_store (Bindings.get_reliable contents _))
      all_goals rfl

/-- An extension is accepted while the height is voted on exactly if it is right. At which height
and from which height on votes carry extensions makes no difference. -/
theorem verify_eq_accept_iff (config : Config) (height : UInt64) {vote : Vote}
    (hextension : vote.extension ≠ []) :
    (Voting.verify config store ⟨height, hash, vote.validator, vote.extension⟩).value = .accept ↔
      ∃ extension, rightExtension? store hash vote = some extension := by
  rw [Voting.value_verify, if_neg hextension, rightExtension?]
  cases VoteExtension.decode vote.extension with
  | error e => simp
  | ok extension =>
    dsimp only
    cases Voting.checkSignature store vote.validator hash extension.signature <;> simp

/-! ## The votes of a commit -/

/-- The vote carries an extension. -/
abbrev Carries (vote : Vote) : Prop :=
  vote.extension ≠ []

/-- No vote before is one that takes the turn of the vote's validator. -/
def HasTurn (takes : Vote → Prop) (before : List Vote) (vote : Vote) : Prop :=
  ∀ earlier ∈ before, takes earlier → earlier.validator ≠ vote.validator

instance (takes : Vote → Prop) [DecidablePred takes] (before : List Vote) (vote : Vote) :
    Decidable (HasTurn takes before vote) :=
  inferInstanceAs (Decidable (∀ earlier ∈ before, takes earlier →
    earlier.validator ≠ vote.validator))

/-- A first vote is also the first one with an extension, if it carries one. -/
theorem HasTurn.carries {before : List Vote} {vote : Vote}
    (h : HasTurn (fun _ => True) before vote) : HasTurn Carries before vote :=
  fun earlier hmem _ => h earlier hmem trivial

/-- The extension of a vote at a position among `votes`, if the vote carries one, has its turn, and
the extension is right. -/
def pick (store : HostStore) (hash : Hash) (takes : Vote → Prop) [DecidablePred takes]
    (votes : List Vote) : Vote × Nat → Option ValidExtension
  | (vote, i) =>
    if Carries vote ∧ HasTurn takes (votes.take i) vote then
      rightExtension? store hash vote
    else none

theorem pick_eq_some_iff {takes : Vote → Prop} [DecidablePred takes] {votes : List Vote}
    {vote : Vote} {i : Nat} {extension : ValidExtension} :
    pick store hash takes votes (vote, i) = some extension ↔
      Carries vote ∧ HasTurn takes (votes.take i) vote ∧
        rightExtension? store hash vote = some extension := by
  rw [pick]
  split
  · next h => simp [h]
  · next h => simp only [reduceCtorEq, false_iff]; exact fun hpick => h ⟨hpick.1, hpick.2.1⟩

/-- The right extensions of those votes that have their turn, in the order of the votes. -/
def rightExtensions (store : HostStore) (hash : Hash) (takes : Vote → Prop) [DecidablePred takes]
    (votes : List Vote) : List ValidExtension :=
  votes.zipIdx.filterMap (pick store hash takes votes)

/-- The first of some votes is picked where it has its turn after the votes before, and then counts
as one of them. -/
theorem filterMap_pick_cons (takes : Vote → Prop) [DecidablePred takes] (before : List Vote)
    (vote : Vote) (rest : List Vote) :
    ((vote :: rest).zipIdx before.length).filterMap
        (pick store hash takes (before ++ vote :: rest)) =
      (if Carries vote ∧ HasTurn takes before vote then rightExtension? store hash vote
        else none).toList ++
      (rest.zipIdx (before ++ [vote]).length).filterMap
        (pick store hash takes (before ++ [vote] ++ rest)) := by
  have hpick : pick store hash takes (before ++ vote :: rest) (vote, before.length) =
      if Carries vote ∧ HasTurn takes before vote then rightExtension? store hash vote
      else none := by
    rw [pick, List.take_left]
  have hlength : (before ++ [vote]).length = before.length + 1 := by simp
  rw [List.zipIdx_cons, List.filterMap_cons, hpick, hlength, List.append_cons before vote rest]
  cases (if Carries vote ∧ HasTurn takes before vote then rightExtension? store hash vote
    else none) <;> rfl

/-- The validators seen are those of the votes before that carry an extension. -/
def SeenIn (before : List Vote) (seen : List Address) : Prop :=
  ∀ validator, validator ∈ seen ↔
    ∃ earlier ∈ before, Carries earlier ∧ earlier.validator = validator

namespace SeenIn

variable {before : List Vote} {seen : List Address} {vote : Vote}

theorem nil : SeenIn [] [] := by
  simp [SeenIn]

/-- A vote has its turn exactly if its validator has not been seen. -/
theorem hasTurn_iff (h : SeenIn before seen) :
    HasTurn Carries before vote ↔ vote.validator ∉ seen := by
  simp [HasTurn, h vote.validator]

/-- A vote without an extension or of a validator that has been seen makes no difference. -/
theorem skip (h : SeenIn before seen) (hskip : vote.extension = [] ∨ vote.validator ∈ seen) :
    SeenIn (before ++ [vote]) seen := by
  intro validator
  rw [h]
  constructor
  · rintro ⟨earlier, hmem, hearlier⟩
    exact ⟨earlier, List.mem_append_left _ hmem, hearlier⟩
  · rintro ⟨earlier, hmem, hcarries, rfl⟩
    rcases List.mem_append.1 hmem with hmem | hmem
    · exact ⟨earlier, hmem, hcarries, rfl⟩
    · obtain rfl := List.mem_singleton.1 hmem
      exact (h _).1 (hskip.resolve_left hcarries)

/-- Of a vote with an extension the validator is seen from then on. -/
theorem push (h : SeenIn before seen) (hextension : vote.extension ≠ []) :
    SeenIn (before ++ [vote]) (vote.validator :: seen) := by
  intro validator
  simp only [List.mem_cons, List.mem_append, List.not_mem_nil, or_false, h validator]
  constructor
  · rintro (rfl | ⟨earlier, hmem, hearlier⟩)
    · exact ⟨vote, .inr rfl, hextension, rfl⟩
    · exact ⟨earlier, .inl hmem, hearlier⟩
  · rintro ⟨earlier, hmem | rfl, hcarries, rfl⟩
    · exact .inr ⟨earlier, hmem, hcarries, rfl⟩
    · exact .inl rfl

end SeenIn

/-- What the search counts among votes after others is picked by turns. -/
theorem Counted.eq_filterMap_pick {seen : List Address} {votes : List Vote}
    {valid : List ValidExtension} (h : Counted (.reliable contents) hash seen votes valid)
    {before : List Vote} (hseen : SeenIn before seen) :
    valid = (votes.zipIdx before.length).filterMap
      (pick (.reliable contents) hash Carries (before ++ votes)) := by
  -- One vote after the other goes over to those that are before.
  induction h generalizing before with
  | nil => rfl
  | @skip seen vote rest valid hskip _ ih =>
    have hturn : ¬(Carries vote ∧ HasTurn Carries before vote) := by
      rw [hseen.hasTurn_iff]
      exact fun h => hskip.elim h.1 h.2
    rw [filterMap_pick_cons, if_neg hturn, ← ih (hseen.skip hskip)]
    rfl
  | drop hextension hnew hexamine _ ih =>
    -- The vote takes the turn of its validator, though its extension is not right.
    rw [value_examine_eq_rightExtension?] at hexamine
    rw [filterMap_pick_cons, if_pos ⟨hextension, hseen.hasTurn_iff.2 hnew⟩,
      Except.ok.inj hexamine, ← ih (hseen.push hextension)]
    rfl
  | keep hextension hnew hsupports _ ih =>
    rw [filterMap_pick_cons, if_pos ⟨hextension, hseen.hasTurn_iff.2 hnew⟩,
      rightExtension?_eq_some_iff.2 hsupports, ← ih (hseen.push hextension)]
    rfl

/-- On a store that does not fail the valid extensions of a commit are the right ones of the first
votes with extensions. -/
theorem value_validExtensions (contents : Store) (commit : Commit) :
    (validExtensions (.reliable contents) commit).run.value =
      .ok (rightExtensions (.reliable contents) commit.blockHash Carries commit.votes) := by
  obtain ⟨valid, hvalid⟩ := exists_validExtensions contents commit
  rw [hvalid, (validExtensions_eq_ok_iff.1 hvalid).eq_filterMap_pick .nil]
  rfl

/-! ## The first extension of a validator -/

/-- The first vote of a validator that carries an extension. -/
def firstExtended? (votes : List Vote) (validator : Address) : Option Vote :=
  votes.find? fun vote => Carries vote ∧ vote.validator = validator

/-- Where the first vote of a validator stands that carries an extension. -/
def firstPosition (votes : List Vote) (validator : Address) : Nat :=
  votes.findIdx fun vote => Carries vote ∧ vote.validator = validator

theorem firstExtended?_eq_getElem? (votes : List Vote) (validator : Address) :
    firstExtended? votes validator = votes[firstPosition votes validator]? :=
  List.find?_eq_getElem?_findIdx

/-- Among the votes with extensions the first one of each validator has its turn. -/
theorem hasTurn_iff_firstPosition {votes : List Vote} {i : Nat} {vote : Vote}
    (hvote : votes[i]? = some vote) (hcarries : Carries vote) :
    HasTurn Carries (votes.take i) vote ↔ firstPosition votes vote.validator = i := by
  obtain ⟨hi, rfl⟩ := List.getElem?_eq_some_iff.1 hvote
  rw [firstPosition, List.findIdx_eq hi]
  simp only [HasTurn, List.mem_take_iff_getElem, decide_eq_true_eq, decide_eq_false_iff_not]
  constructor
  · intro hturn
    refine ⟨⟨hcarries, trivial⟩, fun j hj h => ?_⟩
    exact hturn votes[j] ⟨j, by omega, rfl⟩ h.1 h.2
  · rintro ⟨-, hbefore⟩ earlier ⟨j, hj, rfl⟩ hearlier heq
    exact hbefore j (by omega) ⟨hearlier, heq⟩

/-- The right extensions are those of the votes that carry one and have their turn. -/
theorem mem_rightExtensions_iff {takes : Vote → Prop} [DecidablePred takes] {votes : List Vote}
    {extension : ValidExtension} :
    extension ∈ rightExtensions store hash takes votes ↔
      ∃ i vote, votes[i]? = some vote ∧ Carries vote ∧ HasTurn takes (votes.take i) vote ∧
        rightExtension? store hash vote = some extension := by
  simp only [rightExtensions, List.mem_filterMap, Prod.exists, List.mem_zipIdx_iff_getElem?,
    pick_eq_some_iff]
  exact exists_comm

/-- The first vote of a validator that carries an extension does, and it is of the validator. -/
theorem firstExtended?_spec {votes : List Vote} {validator : Address} {vote : Vote}
    (h : firstExtended? votes validator = some vote) :
    Carries vote ∧ vote.validator = validator := by
  unfold firstExtended? at h
  simpa using List.find?_some h

/-- The extension that counts for a validator is the right one of its first vote with an
extension. -/
theorem mem_rightExtensions_iff_of_first {votes : List Vote} {vote : Vote}
    {extension : ValidExtension}
    (hfirst : firstExtended? votes extension.validator = some vote) :
    extension ∈ rightExtensions store hash Carries votes ↔
      rightExtension? store hash vote = some extension := by
  obtain ⟨hcarries, hvalidator⟩ := firstExtended?_spec hfirst
  rw [firstExtended?_eq_getElem?] at hfirst
  rw [mem_rightExtensions_iff]
  constructor
  · rintro ⟨i, other, hother, hcarries', hturn, hright⟩
    -- The vote has its turn, so it stands where the first one does.
    have hposition := (hasTurn_iff_firstPosition hother hcarries').1 hturn
    rw [← (rightExtension?_eq_some_iff.1 hright).validator_eq] at hposition
    rw [hposition, hother] at hfirst
    rwa [← Option.some.inj hfirst]
  · intro hright
    refine ⟨_, vote, hfirst, hcarries, ?_, hright⟩
    rw [hasTurn_iff_firstPosition hfirst hcarries, hvalidator]

/-- An extension that counts is the right one of the first vote with an extension of its
validator. -/
theorem exists_first_of_mem_rightExtensions {votes : List Vote} {extension : ValidExtension}
    (hmem : extension ∈ rightExtensions store hash Carries votes) :
    ∃ vote, firstExtended? votes extension.validator = some vote ∧
      Supports store hash vote extension := by
  obtain ⟨i, vote, hvote, hcarries, hturn, hright⟩ := mem_rightExtensions_iff.1 hmem
  have hsupports := rightExtension?_eq_some_iff.1 hright
  refine ⟨vote, ?_, hsupports⟩
  rw [firstExtended?_eq_getElem?, hsupports.validator_eq,
    (hasTurn_iff_firstPosition hvote hcarries).1 hturn, hvote]

/-- The extensions that count stand in the order of the first votes with extensions. -/
theorem pairwise_rightExtensions (votes : List Vote) :
    (rightExtensions store hash Carries votes).Pairwise fun one other =>
      firstPosition votes one.validator < firstPosition votes other.validator := by
  have hpositions : votes.zipIdx.Pairwise fun one other => one.2 < other.2 := by
    refine List.pairwise_map.1 ?_
    rw [List.zipIdx_map_snd]
    exact List.pairwise_lt_range'
  -- What is picked at a position is of the validator whose first extension stands there.
  have hposition : ∀ at_ ∈ votes.zipIdx, ∀ extension,
      pick store hash Carries votes at_ = some extension →
        firstPosition votes extension.validator = at_.2 := by
    rintro ⟨vote, i⟩ hmem extension hpick
    obtain ⟨hcarries, hturn, hright⟩ := pick_eq_some_iff.1 hpick
    rw [(rightExtension?_eq_some_iff.1 hright).validator_eq]
    exact (hasTurn_iff_firstPosition (List.mem_zipIdx_iff_getElem?.1 hmem) hcarries).1 hturn
  refine (List.Pairwise.and_mem.1 hpositions).filterMap _ ?_
  rintro one other ⟨hone, hother, hlt⟩ extension hpick extension' hpick'
  rw [hposition one hone extension hpick, hposition other hother extension' hpick']
  exact hlt

/-! ## First votes -/

/-- A vote that has its turn among those with extensions is the first one of its validator, if the
extension of a first vote of this validator is right. -/
theorem HasTurn.of_mem_leading {votes : List Vote} {i : Nat} {vote : Vote}
    {extension : ValidExtension} (hvote : votes[i]? = some vote) (hcarries : Carries vote)
    (hturn : HasTurn Carries (votes.take i) vote)
    (hmem : extension ∈ rightExtensions store hash (fun _ => True) votes)
    (hvalidator : extension.validator = vote.validator) :
    HasTurn (fun _ => True) (votes.take i) vote := by
  obtain ⟨j, first, hfirst, hcarries', hturn', hright⟩ := mem_rightExtensions_iff.1 hmem
  rw [(rightExtension?_eq_some_iff.1 hright).validator_eq] at hvalidator
  -- The first vote carries an extension, so both stand where the first extension does.
  have hi := (hasTurn_iff_firstPosition hvote hcarries).1 hturn
  have hj := (hasTurn_iff_firstPosition hfirst hcarries').1 hturn'.carries
  rw [hvalidator, hi] at hj
  subst hj
  rw [hvote] at hfirst
  rwa [Option.some.inj hfirst]

/-- If all votes whose extensions count are first votes, then the extensions that count are those of
the first votes. -/
theorem rightExtensions_eq_leading {votes : List Vote}
    (hfirst : ∀ i vote extension, votes[i]? = some vote → Carries vote →
      HasTurn Carries (votes.take i) vote → rightExtension? store hash vote = some extension →
      HasTurn (fun _ => True) (votes.take i) vote) :
    rightExtensions store hash Carries votes =
      rightExtensions store hash (fun _ => True) votes := by
  refine List.filterMap_congr ?_
  rintro ⟨vote, i⟩ hmem
  have hvote := List.mem_zipIdx_iff_getElem?.1 hmem
  refine Option.ext fun extension => ?_
  rw [pick_eq_some_iff, pick_eq_some_iff]
  constructor
  · rintro ⟨hcarries, hturn, hright⟩
    exact ⟨hcarries, hfirst i vote extension hvote hcarries hturn hright, hright⟩
  · rintro ⟨hcarries, hturn, hright⟩
    exact ⟨hcarries, hturn.carries, hright⟩

/-! ## The prepared block -/

/-- The proposer aggregates the right extensions of those votes that are the first with an extension
of their validators, in the order of the votes and as many as there is room for. They are those of
the votes that are the first of their validators exactly if no extension counts that comes after a
vote of the same validator. -/
theorem prepared_first_extensions (config : Config) (contents : Store)
    (request : PrepareRequest) :
    let store := HostStore.reliable contents
    let hash := request.lastCommit.blockHash
    let votes := request.lastCommit.votes
    let counted := (rightExtensions store hash Carries votes).map ValidExtension.entry
    let leading := (rightExtensions store hash (fun _ => True) votes).map ValidExtension.entry
    (prepare config store request).run.value =
        .ok ⟨withAggregate (counted.take config.maxAggregateEntries.toNat) request.txs⟩ ∧
      (counted = leading ↔ ∀ i vote extension, votes[i]? = some vote → Carries vote →
        HasTurn Carries (votes.take i) vote → rightExtension? store hash vote = some extension →
        HasTurn (fun _ => True) (votes.take i) vote) := by
  intro store hash votes counted leading
  constructor
  · rw [value_prepare config (value_validExtensions contents request.lastCommit), value_inject,
      List.map_take]
  · constructor
    · intro hagree i vote extension hvote hcarries hturn hright
      -- The entry of the extension stands among those of first votes, too.
      have hmem : extension.entry ∈ counted :=
        List.mem_map_of_mem (mem_rightExtensions_iff.2 ⟨i, vote, hvote, hcarries, hturn, hright⟩)
      rw [hagree] at hmem
      obtain ⟨other, hother, hentry⟩ := List.mem_map.1 hmem
      have hvalidator : other.validator = extension.validator :=
        congrArg AggregateEntry.validator hentry
      rw [(rightExtension?_eq_some_iff.1 hright).validator_eq] at hvalidator
      exact hturn.of_mem_leading hvote hcarries hother hvalidator
    · intro hfirst
      exact congrArg (List.map ValidExtension.entry) (rightExtensions_eq_leading hfirst)

/-! ### A validator that votes twice -/

/-- The first vote of a validator carries no extension, and a later one of its votes does. -/
def lateExtension : PrepareRequest where
  height := 2
  txs := []
  lastCommit :=
    { height := 1
      blockHash := votedHash
      votes := [⟨firstVoter, []⟩, ⟨firstVoter, VoteExtension.encode ⟨votedSignature⟩⟩] }

/-- The later vote counts where the validator has no binding. -/
theorem validExtensions_lateExtension :
    (validExtensions (.reliable .empty) lateExtension.lastCommit).run.value =
      .ok [firstVote firstVoter] := by
  refine validExtensions_eq_ok_iff.2 (.skip (.inl rfl) ?_)
  exact .keep (Wire.write_ne_nil _) List.not_mem_nil
    (supports_firstVote (Bindings.get_reliable .empty _)) .nil

/-- The extension of the later vote is aggregated, though it is not that of the first vote, which
carries none. -/
theorem late_extension_aggregated :
    (prepare {} (.reliable .empty) lateExtension).run.value =
        .ok ⟨[Aggregate.encode ⟨[⟨firstVoter, votedSignature⟩]⟩]⟩ ∧
      rightExtensions (.reliable .empty) votedHash (fun _ => True)
        lateExtension.lastCommit.votes = [] := by
  constructor
  · rw [value_prepare {} validExtensions_lateExtension]
    rfl
  · simp [rightExtensions, pick, HasTurn, lateExtension]

/-! ## The verdict while the height is voted on -/

/-- On a store that does not fail the extension of a validator counts in a commit exactly if the
validator's first vote with an extension is accepted while the height is voted on, whatever the
height is and from whichever height on votes carry extensions. A validator whose extension counts
stands there once, with the signature of this extension, and the validators stand in the order of
these votes. -/
theorem counted_iff_accepted (contents : Store) (commit : Commit) :
    ∃ valid, (validExtensions (.reliable contents) commit).run.value = .ok valid ∧
      (∀ validator vote, firstExtended? commit.votes validator = some vote →
        ∀ config height, validator ∈ valid.map ValidExtension.validator ↔
          (Voting.verify config (.reliable contents)
            ⟨height, commit.blockHash, validator, vote.extension⟩).value = .accept) ∧
      (∀ extension ∈ valid,
        (valid.map ValidExtension.validator).count extension.validator = 1 ∧
        ∃ vote, firstExtended? commit.votes extension.validator = some vote ∧
          VoteExtension.decode vote.extension = .ok ⟨extension.signature⟩) ∧
      valid.Pairwise fun one other =>
        firstPosition commit.votes one.validator < firstPosition commit.votes other.validator := by
  have hvalid := value_validExtensions contents commit
  refine ⟨_, hvalid, ?_, ?_, pairwise_rightExtensions commit.votes⟩
  · intro validator vote hfirst config height
    obtain ⟨hcarries, rfl⟩ := firstExtended?_spec hfirst
    rw [verify_eq_accept_iff config height hcarries, List.mem_map]
    constructor
    · rintro ⟨extension, hmem, hvalidator⟩
      rw [← hvalidator] at hfirst
      exact ⟨extension, (mem_rightExtensions_iff_of_first hfirst).1 hmem⟩
    · rintro ⟨extension, hright⟩
      have hvalidator := (rightExtension?_eq_some_iff.1 hright).validator_eq
      rw [← hvalidator] at hfirst
      exact ⟨extension, (mem_rightExtensions_iff_of_first hfirst).2 hright, hvalidator⟩
  · intro extension hmem
    have hnodup := (validExtensions_eq_ok_iff.1 hvalid).nodup_validators
    obtain ⟨vote, hfirst, hsupports⟩ := exists_first_of_mem_rightExtensions hmem
    exact ⟨List.count_eq_one_of_mem hnodup (List.mem_map_of_mem hmem), vote, hfirst,
      hsupports.decode_eq⟩

/-- The extension that came late is accepted, even where votes carry no extensions. -/
theorem counted_lateExtension :
    let vote : Vote := ⟨firstVoter, VoteExtension.encode ⟨votedSignature⟩⟩
    firstExtended? lateExtension.lastCommit.votes firstVoter = some vote ∧
      (validExtensions (.reliable .empty) lateExtension.lastCommit).run.value =
        .ok [firstVote firstVoter] ∧
      (Voting.verify { extensionsEnableHeight := 0 } (.reliable .empty)
        ⟨1, votedHash, firstVoter, vote.extension⟩).value = .accept := by
  intro vote
  have hfirst : firstExtended? lateExtension.lastCommit.votes firstVoter = some vote := by
    have hcarries : Carries vote := Wire.write_ne_nil _
    simp [firstExtended?, lateExtension, vote, hcarries]
  obtain ⟨valid, hvalid, haccepted, -, -⟩ := counted_iff_accepted .empty lateExtension.lastCommit
  obtain rfl := Except.ok.inj (hvalid.symm.trans validExtensions_lateExtension)
  refine ⟨hfirst, hvalid, ?_⟩
  exact (haccepted firstVoter vote hfirst _ _).1 (by simp [firstVote])

end SecondFactor.Proposal
