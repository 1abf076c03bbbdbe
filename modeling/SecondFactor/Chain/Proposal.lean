import SecondFactor.Chain.Vote

/-!
# Proposals

What the consensus engine passes on when a block is proposed: the request to put the transactions
of a block together, and the request to check a block that someone proposed.
-/

namespace SecondFactor

/-- Transactions of a block in JSON. -/
def Json.ofTransactions (txs : List Bytes) : Json :=
  .array (txs.map .ofByteNumbers)

/-- The transactions of a JSON form. -/
def Json.transactions? (j : Json) : Option (List Bytes) :=
  j.list? Json.byteNumbers?

/-- The request to put a block together. -/
structure PrepareRequest where
  /-- The height of the block. -/
  height : UInt64 := 0
  /-- The transactions at hand. -/
  txs : List Bytes := []
  /-- The commit of the last height as the proposer saw it. -/
  lastCommit : Commit := {}
deriving DecidableEq

instance : Wire PrepareRequest where
  toJson request := .ofFields
    [("height", Wire.toJson request.height), ("txs", .ofTransactions request.txs),
      ("local_last_commit", Wire.toJson request.lastCommit)]
  ofJson? j := do
    let [some height, some txs, some lastCommit] ←
      Json.fields? ["height", "txs", "local_last_commit"] { ignoresUnknown := true } j | none
    return ⟨← Wire.ofJson? height, ← txs.transactions?, ← Wire.ofJson? lastCommit⟩

/-- The transactions of a block. -/
structure PrepareReply where
  /-- The transactions, in order. -/
  txs : List Bytes
deriving DecidableEq

instance : Wire PrepareReply where
  toJson reply := .ofFields [("txs", .ofTransactions reply.txs)]
  ofJson? j := do
    let [some txs] ← Json.fields? ["txs"] { ignoresUnknown := true } j | none
    return ⟨← txs.transactions?⟩

/-- The request to check a block. -/
structure ProcessRequest where
  /-- The height of the block. -/
  height : UInt64 := 0
  /-- The transactions of the block. -/
  txs : List Bytes := []
  /-- The commit of the last height on which the block builds. -/
  lastCommit : Commit := {}
deriving DecidableEq

instance : Wire ProcessRequest where
  toJson request := .ofFields
    [("height", Wire.toJson request.height), ("txs", .ofTransactions request.txs),
      ("proposed_last_commit", Wire.toJson request.lastCommit)]
  ofJson? j := do
    let [some height, some txs, some lastCommit] ←
      Json.fields? ["height", "txs", "proposed_last_commit"] { ignoresUnknown := true } j | none
    return ⟨← Wire.ofJson? height, ← txs.transactions?, ← Wire.ofJson? lastCommit⟩

end SecondFactor
