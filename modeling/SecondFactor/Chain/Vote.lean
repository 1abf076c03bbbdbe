import SecondFactor.Json.Record

/-!
# Votes

What the consensus engine passes on while a height is voted on: the request for this validator's
vote extension, the request to check another one's, and the votes of the last height.
-/

namespace SecondFactor

/-- A decision on a vote or on a proposal. -/
inductive Verdict where
  /-- It counts. -/
  | accept
  /-- It is dropped. -/
  | reject
deriving DecidableEq

/-- The name of a verdict. -/
def Verdict.name : Verdict → String
  | accept => "Accept"
  | reject => "Reject"

instance : Wire Verdict where
  toJson verdict := .ofText verdict.name
  ofJson? := Json.variant? ([Verdict.accept, Verdict.reject].map fun v => (v.name, v))

/-- The request for this validator's vote extension. -/
structure ExtendRequest where
  /-- The height that is voted on. -/
  height : UInt64
  /-- The hash of the block that is voted for. -/
  hash : Hash
deriving DecidableEq

instance : Wire ExtendRequest where
  toJson request := .ofFields
    [("height", Wire.toJson request.height), ("hash", Wire.toJson request.hash)]
  ofJson? j := do
    let [some height, some hash] ←
      Json.fields? ["height", "hash"] { ignoresUnknown := true } j | none
    return ⟨← Wire.ofJson? height, ← Wire.ofJson? hash⟩

/-- This validator's vote extension; without bytes where there is none. -/
structure ExtendReply where
  /-- The bytes that go with the vote. -/
  extension : Bytes
deriving DecidableEq

instance : Wire ExtendReply where
  toJson reply := .ofFields [("vote_extension", .ofByteNumbers reply.extension)]
  ofJson? j := do
    let [some extension] ← Json.fields? ["vote_extension"] { ignoresUnknown := true } j | none
    return ⟨← extension.byteNumbers?⟩

/-- The request to check the extension of a vote. -/
structure CheckRequest where
  /-- The height of the vote. -/
  height : UInt64
  /-- The hash of the block that is voted for. -/
  hash : Hash
  /-- Who votes. -/
  validator : Address
  /-- The extension of the vote. -/
  extension : Bytes
deriving DecidableEq

instance : Wire CheckRequest where
  toJson request := .ofFields
    [("height", Wire.toJson request.height), ("hash", Wire.toJson request.hash),
      ("validator_address", Wire.toJson request.validator),
      ("vote_extension", .ofByteNumbers request.extension)]
  ofJson? j := do
    let [some height, some hash, some validator, some extension] ←
      Json.fields? ["height", "hash", "validator_address", "vote_extension"]
        { ignoresUnknown := true } j | none
    return ⟨← Wire.ofJson? height, ← Wire.ofJson? hash, ← Wire.ofJson? validator,
      ← extension.byteNumbers?⟩

/-- A vote of the last height. -/
structure Vote where
  /-- Who voted. -/
  validator : Address
  /-- The extension of the vote; without bytes where there is none. -/
  extension : Bytes
deriving DecidableEq

instance : Wire Vote where
  toJson vote := .ofFields
    [("validator_address", Wire.toJson vote.validator),
      ("vote_extension", .ofByteNumbers vote.extension)]
  ofJson? j := do
    let [some validator, some extension] ←
      Json.fields? ["validator_address", "vote_extension"] { ignoresUnknown := true } j | none
    return ⟨← Wire.ofJson? validator, ← extension.byteNumbers?⟩

/-- The commit of the last height. -/
structure Commit where
  /-- The height of the committed block. -/
  height : UInt64 := 0
  /-- The hash of the committed block, which the vote extensions sign. -/
  blockHash : Hash := .zero 32
  /-- The votes, in the order of the engine. -/
  votes : List Vote := []
deriving DecidableEq

instance : Wire Commit where
  toJson commit := .ofFields
    [("height", Wire.toJson commit.height), ("block_hash", Wire.toJson commit.blockHash),
      ("votes", Wire.toJson commit.votes)]
  ofJson? j := do
    let [some height, some blockHash, some votes] ←
      Json.fields? ["height", "block_hash", "votes"] { ignoresUnknown := true } j | none
    return ⟨← Wire.ofJson? height, ← Wire.ofJson? blockHash, ← Wire.ofJson? votes⟩

/-- The number of votes that come with an extension. -/
def Commit.extensionCount (commit : Commit) : Nat :=
  commit.votes.countP fun vote => !vote.extension.isEmpty

end SecondFactor
