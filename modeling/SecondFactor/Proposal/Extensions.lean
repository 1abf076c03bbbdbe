import SecondFactor.Aggregate
import SecondFactor.Chain.Vote
import SecondFactor.Voting.Check

/-!
# The Valid Extensions of a Commit

Of each validator the first vote with an extension counts, and it counts if the extension can be
read and verifies over the hash of the committed block. Proposer and replicas find the valid
extensions by the same definition, and so agree on what an honest aggregate holds. A store that
cannot be read ends the search; whatever else is wrong with a vote only drops it.
-/

namespace SecondFactor.Proposal

/-- The extension of a vote of a commit that counts. -/
structure ValidExtension where
  /-- Who voted. -/
  validator : Address
  /-- The signature of the extension. -/
  signature : Bytes
  /-- How the signature was found to be right. -/
  check : Voting.Check
deriving DecidableEq

namespace ValidExtension

/-- What the extension contributes to an aggregate. -/
def entry (extension : ValidExtension) : AggregateEntry :=
  ⟨extension.validator, extension.signature⟩

/-- The binding that an extension gives rise to: one of the recovered key, if there is one. -/
def learned (extension : ValidExtension) : List Binding :=
  match extension.check with
  | .bound => []
  | .recovered key => [⟨.validator extension.validator, key⟩]

end ValidExtension

/-- The extension of one vote, if it counts. -/
def examine (store : HostStore) (blockHash : Hash) (vote : Vote) :
    Attempt (Option ValidExtension) :=
  match VoteExtension.decode vote.extension with
  | .error e => do
    record (.voteMalformed vote.validator e)
    return none
  | .ok extension =>
    match Voting.checkSignature store vote.validator blockHash extension.signature with
    | .ok check => return some ⟨vote.validator, extension.signature, check⟩
    -- A store that fails tells nothing about the vote, so dropping it would be wrong.
    | .error (.store e) => throw (.store e)
    | .error e => do
      record (.voteUnverifiable vote.validator e)
      return none

/-- The valid extensions among votes, in order, when votes of the validators in `seen` came
before. -/
def validAmong (store : HostStore) (blockHash : Hash) (seen : List Address) :
    List Vote → Attempt (List ValidExtension)
  | [] => return []
  | vote :: rest =>
    -- A vote without an extension does not use up the validator's first one.
    if vote.extension = [] then validAmong store blockHash seen rest
    else if vote.validator ∈ seen then do
      record (.voteDuplicate vote.validator)
      validAmong store blockHash seen rest
    else do
      let found ← examine store blockHash vote
      let others ← validAmong store blockHash (vote.validator :: seen) rest
      return found.toList ++ others

/-- The valid extensions of a commit, in the order of the votes. -/
def validExtensions (store : HostStore) (commit : Commit) : Attempt (List ValidExtension) :=
  validAmong store commit.blockHash [] commit.votes

end SecondFactor.Proposal
