import SecondFactor.Aggregate
import SecondFactor.Chain.Vote
import SecondFactor.Config
import SecondFactor.Voting.Check

/-!
# Extensions while a Height Is Voted On

A validator extends its own vote with a signature over the hash of the block (`extend`) and judges
the extensions that come with the votes of others (`verify`). Both only answer: what is learned
about keys is learned when a proposal is processed.
-/

namespace SecondFactor.Voting

/-- Makes the extension of this validator's vote, with its key if it has one. -/
def extend (config : Config) (key : Option SecretKey) (request : ExtendRequest) :
    Attempt ExtendReply :=
  if config.extensionsEnabled request.height then
    match key with
    | none => throw (.config .missingValidatorKey)
    | some key =>
      match key.sign? request.hash with
      | none => throw .verificationFailed
      | some signature => do
        record (.voteExtended request.height)
        return ⟨VoteExtension.encode ⟨signature.bytes⟩⟩
  else return ⟨[]⟩

/-- Judges the extension of another validator's vote. -/
def verify (config : Config) (store : HostStore) (request : CheckRequest) : Logged Verdict :=
  if request.extension = [] then
    if config.extensionsEnabled request.height then do
      record (.extensionMissing request.height request.validator)
      return .reject
    else return .accept
  else
    match VoteExtension.decode request.extension with
    | .error e => do
      record (.extensionUndecodable request.height request.validator e)
      return .reject
    | .ok extension =>
      match checkSignature store request.validator request.hash extension.signature with
      | .ok check => do
        record (.extensionVerified request.height request.validator (check != .bound))
        return .accept
      | .error e => do
        record (.extensionUnverified request.height request.validator e)
        return .reject

end SecondFactor.Voting
