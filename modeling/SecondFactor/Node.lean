import SecondFactor.Authentication
import SecondFactor.Proposal.Prepare
import SecondFactor.Proposal.Process
import SecondFactor.Registration
import SecondFactor.Voting.Gossip

/-!
# Nodes

A node serves its host: it answers the operations of the chain one after the other over the
host's store. This module holds a node's set-up, the operations with their replies, one step
(`perform`) and whole runs, in which the calls to the store may fail differently in each step
(`run`).
-/

namespace SecondFactor

/-- A node: the parameters of its chain and, on a validator, its own key. -/
structure Node where
  /-- The parameters of the chain. -/
  config : Config
  /-- The key to extend votes with. -/
  signingKey : Option SecretKey
deriving DecidableEq

/-- What a host asks a node for. -/
inductive Operation where
  /-- To bind a key to the account of a sender. -/
  | register (ctx : BlockContext) (message : RegisterMessage)
  /-- To check the second factor of a transaction. -/
  | authenticate (ctx : BlockContext) (tx : Transaction) (simulate : Bool)
  /-- To extend this validator's vote. -/
  | extend (request : ExtendRequest)
  /-- To judge the extension of a vote. -/
  | verify (request : CheckRequest)
  /-- To put a block together. -/
  | prepare (request : PrepareRequest)
  /-- To decide on a block. -/
  | process (request : ProcessRequest)
  /-- To tell the key of an identity. -/
  | lookup (identity : Identity)
deriving DecidableEq

/-- What a node answers. -/
inductive Reply where
  /-- The answer to a registration. -/
  | registered (result : Except Error RegisterReply)
  /-- How a transaction passes. -/
  | authenticated (result : Except Error Admission)
  /-- The extension of the vote. -/
  | extended (result : Except Error ExtendReply)
  /-- The verdict on a vote. -/
  | verified (verdict : Verdict)
  /-- The transactions of the block. -/
  | prepared (result : Except Error PrepareReply)
  /-- The verdict on a block. -/
  | processed (verdict : Verdict)
  /-- The key, if one is bound. -/
  | found (result : Except Error (Option Bytes))

namespace Node

/-- Sets a node up, if it can work with the configuration. -/
def start (config : Config) (signingKey : Option SecretKey) : Attempt Node :=
  match config.validate with
  | .ok () => do
    record (.nodeReady config.memoPrefix config.rebindPolicy)
    return ⟨config, signingKey⟩
  | .error e => throw (.config e)

/-- Answers one operation. -/
def perform (node : Node) : Operation → StateT HostStore Logged Reply
  | .register ctx message =>
    .registered <$> (Registration.execute node.config ctx message).run
  | .authenticate ctx tx simulate => fun store => do
    let result ← (Authentication.authenticate node.config store ctx tx simulate).run
    return (.authenticated result, store)
  | .extend request => fun store => do
    let result ← (Voting.extend node.config node.signingKey request).run
    return (.extended result, store)
  | .verify request => fun store => do
    let verdict ← Voting.verify node.config store request
    return (.verified verdict, store)
  | .prepare request => fun store => do
    let result ← (Proposal.prepare node.config store request).run
    return (.prepared result, store)
  | .process request => .processed <$> Proposal.process node.config request
  | .lookup identity => fun store => return (.found (Bindings.get store identity), store)

/-- Answers operations one after the other, each while the store has faults of its own. -/
def run (node : Node) : List (Faults × Operation) → StateT Store Logged (List Reply)
  | [] => return []
  | (faults, operation) :: rest => do
    let reply ← fun contents =>
      (fun (reply, store) => (reply, store.contents)) <$> node.perform operation ⟨contents, faults⟩
    return reply :: (← run node rest)

end Node

end SecondFactor
