import SecondFactor.Bytes
import SecondFactor.Bytes.Hex
import SecondFactor.Text.Utf8
import SecondFactor.Text.Blank
import SecondFactor.Text.Printable
import SecondFactor.Text.Quoted
import SecondFactor.Text.Decimal
import SecondFactor.Hash.Blocks
import SecondFactor.Hash.Keccak
import SecondFactor.Hash.Sha256
import SecondFactor.Hash.Hmac
import SecondFactor.Curve.Field
import SecondFactor.Curve.Point
import SecondFactor.Curve.PublicKey
import SecondFactor.Signature.Scalar
import SecondFactor.Signature.Ecdsa
import SecondFactor.Signature.Nonce
import SecondFactor.Signature.SecretKey
import SecondFactor.Json.Basic
import SecondFactor.Json.Reader
import SecondFactor.Json.Writer
import SecondFactor.Json.Record
import SecondFactor.Identity
import SecondFactor.Error
import SecondFactor.Config.Policy
import SecondFactor.Config
import SecondFactor.Config.Environment
import SecondFactor.Event
import SecondFactor.Logged
import SecondFactor.Store
import SecondFactor.Store.Host
import SecondFactor.Update
import SecondFactor.Bindings
import SecondFactor.Chain.Transaction
import SecondFactor.Chain.Vote
import SecondFactor.Chain.Proposal
import SecondFactor.Envelope
import SecondFactor.Aggregate
import SecondFactor.Registration
import SecondFactor.Authentication
import SecondFactor.Pipeline
import SecondFactor.Voting.Check
import SecondFactor.Voting.Gossip
import SecondFactor.Proposal.Extensions
import SecondFactor.Proposal.Prepare
import SecondFactor.Proposal.Process
import SecondFactor.Node
import SecondFactor.Proofs.Bindings
import SecondFactor.Proofs.Voting.Check
import SecondFactor.Proofs.Proposal.Extensions
import SecondFactor.Proofs.Proposal.Process
import SecondFactor.Proofs.Json.Records
import SecondFactor.Proofs.Proposal.Decision
import SecondFactor.Proofs.Proposal.Prepare
import SecondFactor.Proofs.Announcements
import SecondFactor.Proofs.Registration
import SecondFactor.Proofs.Node
import SecondFactor.Proofs.History
import SecondFactor.Proofs.Provenance
import SecondFactor.Proofs.Authentication
import SecondFactor.Proofs.Accounts
import SecondFactor.Proofs.Replicas
import SecondFactor.Proofs.Curve.Field
import SecondFactor.Proofs.Curve.Primes
import SecondFactor.Proofs.Curve.Group
import SecondFactor.Proofs.Curve.PublicKey
import SecondFactor.Proofs.Signature.Scalar
import SecondFactor.Proofs.Signature.Arithmetic
import SecondFactor.Proofs.Signature.SecretKey
import SecondFactor.Proofs.Decimal
import SecondFactor.Proofs.Environment
import SecondFactor.Proofs.Json.Values
import SecondFactor.Proofs.Signature.Ecdsa
import SecondFactor.Proofs.Voting.Gossip
import SecondFactor.Proofs.Proposal.FirstUse
import SecondFactor.Proofs.Proposal.Recheck
import SecondFactor.Proofs.Proposal.Rounds
import SecondFactor.Proofs.Proposal.Retries
import SecondFactor.Proofs.Proposal.Selection
import SecondFactor.Proofs.Gate
import SecondFactor.Proofs.MemoPrefix
import SecondFactor.Proofs.Signature.Malleability
import SecondFactor.Proofs.Voting.Recovery
import SecondFactor.Proofs.Proposal.VoteOrder
import SecondFactor.Proofs.Signature.Normalization
import SecondFactor.Proofs.Documents
import SecondFactor.Proofs.RoundTrips
import SecondFactor.Proofs.Formats
import SecondFactor.Proofs.Pipeline
import SecondFactor.Proofs.Atomicity
import SecondFactor.Proofs.Reports
import SecondFactor.Proofs.Json.Lenient
import SecondFactor.Proofs.HostRecords
import SecondFactor.Proofs.Store.Writes
import SecondFactor.Proofs.Identity
import SecondFactor.Proofs.Store.Calls
import SecondFactor.Proofs.Store.Calling
import SecondFactor.Proofs.Calls
import SecondFactor.Proofs.Signature.Nonce
