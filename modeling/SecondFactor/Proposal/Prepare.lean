import SecondFactor.Chain.Proposal
import SecondFactor.Config
import SecondFactor.Proposal.Extensions

/-!
# Preparing a Proposal

The proposer puts the aggregate of the last commit's valid extensions in front of the
transactions, which it leaves as they are. Where there is nothing to aggregate nothing is put
there.
-/

namespace SecondFactor.Proposal

/-- As many valid extensions as an aggregate may hold. -/
def capped (config : Config) (height : UInt64) (valid : List ValidExtension) :
    Logged (List ValidExtension) :=
  if config.maxAggregateEntries.toNat < valid.length then do
    record (.aggregateCapped height config.maxAggregateEntries)
    return valid.take config.maxAggregateEntries.toNat
  else return valid

/-- The aggregate of valid extensions. -/
def aggregateOf (valid : List ValidExtension) : Aggregate :=
  ⟨valid.map ValidExtension.entry⟩

/-- The transactions of a block, with the aggregate of some extensions in front of them. -/
def inject (height : UInt64) (txs : List Bytes) : List ValidExtension → Logged (List Bytes)
  | [] => do
    record (.nothingToInject height)
    return txs
  | first :: rest => do
    let aggregate := aggregateOf (first :: rest)
    record (.aggregateInjected height aggregate.size)
    return aggregate.encode :: txs

/-- Puts a block together. -/
def prepare (config : Config) (store : HostStore) (request : PrepareRequest) :
    Attempt PrepareReply := do
  let valid ← validExtensions store request.lastCommit
  let valid ← (capped config request.height valid : Logged _)
  let txs ← (inject request.height request.txs valid : Logged _)
  return ⟨txs⟩

end SecondFactor.Proposal
