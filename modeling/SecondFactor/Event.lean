import SecondFactor.Config.Policy
import SecondFactor.Error

/-!
# Events

What the library tells operators: one event at each point where something is decided or written.
An event is a value; its level, its message and its fields are functions of it.
-/

namespace SecondFactor

/-- How urgent an event is. -/
inductive Level where
  /-- Of interest when looking for the cause of something. -/
  | debug
  /-- The ordinary course of things. -/
  | info
  /-- Something was refused. -/
  | warn
  /-- Something failed that should not. -/
  | error
deriving DecidableEq

/-- The written form of a level. -/
def Level.name : Level → String
  | debug => "DEBUG"
  | info => "INFO"
  | warn => "WARN"
  | error => "ERROR"

/-- Something that happened. -/
inductive Event where
  /-- A node has been set up. -/
  | nodeReady (memoPrefix : String) (policy : RebindPolicy)
  /-- A binding is about to be written. -/
  | writingBinding (identity : Identity)
  /-- A registration holds no envelope. -/
  | registrationMalformed (height : UInt64) (sender : Address) (reason : Error)
  /-- A registration does not prove that its sender has the key. -/
  | registrationUnproved (height : UInt64) (sender : Address)
  /-- A registration succeeded. -/
  | registered (height : UInt64) (sender : Address) (outcome : BindOutcome)
  /-- A transaction passed unchecked. -/
  | checkBypassed (height : UInt64) (simulate : Bool)
  /-- A memo starts like an envelope and is none. -/
  | envelopeMalformed (height : UInt64) (reason : Error)
  /-- A memo does not start like an envelope. -/
  | memoUnsigned (height : UInt64)
  /-- An envelope lacks a field. -/
  | envelopeIncomplete (height : UInt64) (reason : Error)
  /-- A transaction has no signer. -/
  | signerUnresolved (height : UInt64) (reason : Error)
  /-- A signer's key could not be looked up. -/
  | bindingMissing (height : UInt64) (identity : Identity)
  /-- A signer declares a key other than the one bound. -/
  | keyDiffers (height : UInt64) (identity : Identity)
  /-- A signer's secondary signature is wrong. -/
  | signatureInvalid (height : UInt64) (identity : Identity)
  /-- A signer's secondary signature is right. -/
  | signatureVerified (height : UInt64) (identity : Identity)
  /-- A stage of a pipeline rejected a transaction. -/
  | stageRejected (stage code : String)
  /-- A vote extension was made. -/
  | voteExtended (height : UInt64)
  /-- A vote comes without its extension. -/
  | extensionMissing (height : UInt64) (validator : Address)
  /-- A vote extension cannot be read. -/
  | extensionUndecodable (height : UInt64) (validator : Address) (reason : Error)
  /-- A vote extension verified, with a recovered or with the bound key. -/
  | extensionVerified (height : UInt64) (validator : Address) (recovered : Bool)
  /-- A vote extension does not verify. -/
  | extensionUnverified (height : UInt64) (validator : Address) (reason : Error)
  /-- A validator votes a second time in a commit. -/
  | voteDuplicate (validator : Address)
  /-- The extension of a vote in a commit cannot be read. -/
  | voteMalformed (validator : Address) (reason : Error)
  /-- The extension of a vote in a commit does not verify. -/
  | voteUnverifiable (validator : Address) (reason : Error)
  /-- An aggregate was cut at the bound on its entries. -/
  | aggregateCapped (height : UInt64) (limit : UInt64)
  /-- A proposal needs no aggregate. -/
  | nothingToInject (height : UInt64)
  /-- An aggregate was put in front of a proposal. -/
  | aggregateInjected (height : UInt64) (entries : Nat)
  /-- A validator's key could not be written. -/
  | bindingNotPersisted (height : UInt64) (reason : Error)
  /-- The aggregate of a proposal was accepted. -/
  | aggregateAccepted (height : UInt64) (entries learned : Nat)
  /-- A proposal was rejected. -/
  | proposalRejected (height : UInt64) (reason : Error)
deriving DecidableEq

namespace Event

/-- The level of an event. -/
def level : Event → Level
  | nodeReady .. | registered .. | aggregateInjected .. => .info
  | writingBinding .. | checkBypassed .. | envelopeMalformed .. | memoUnsigned ..
  | envelopeIncomplete .. | signerUnresolved .. | bindingMissing .. | signatureVerified ..
  | stageRejected .. | voteExtended .. | extensionVerified .. | nothingToInject ..
  | aggregateAccepted .. => .debug
  | registrationMalformed .. | registrationUnproved .. | keyDiffers .. | signatureInvalid ..
  | extensionMissing .. | extensionUndecodable .. | extensionUnverified .. | voteDuplicate ..
  | voteMalformed .. | voteUnverifiable .. | aggregateCapped .. | proposalRejected .. => .warn
  | bindingNotPersisted .. => .error

/-- The message of an event. -/
def message : Event → String
  | nodeReady .. => "Secondary-key service ready"
  | writingBinding .. => "Writing secondary key binding"
  | registrationMalformed .. => "Registration rejected: malformed envelope"
  | registrationUnproved .. => "Registration rejected: proof of possession failed"
  | registered _ _ .created => "Registered secondary key"
  | registered _ _ .replaced => "Replaced secondary key"
  | registered _ _ .unchanged => "Secondary key already registered"
  | checkBypassed .. => "Secondary signature check bypassed"
  | envelopeMalformed .. => "Rejecting tx: malformed envelope"
  | memoUnsigned .. => "Memo carries no secondary signature"
  | envelopeIncomplete .. => "Rejecting tx: incomplete envelope"
  | signerUnresolved .. => "Rejecting tx: cannot resolve signer"
  | bindingMissing .. => "Rejecting tx: no secondary key bound"
  | keyDiffers .. => "Rejecting tx: declared secondary key differs from binding"
  | signatureInvalid .. => "Rejecting tx: secondary signature invalid"
  | signatureVerified .. => "Secondary signature verified"
  | stageRejected .. => "Ante stage rejected tx"
  | voteExtended .. => "Extended vote with secondary signature"
  | extensionMissing .. => "Rejecting vote: missing extension"
  | extensionUndecodable .. => "Rejecting vote: undecodable extension"
  | extensionVerified _ _ false => "Vote extension verified"
  | extensionVerified _ _ true => "Vote extension verified against recovered key"
  | extensionUnverified .. => "Rejecting vote: bad extension signature"
  | voteDuplicate .. => "Skipping duplicate vote extension"
  | voteMalformed .. => "Skipping malformed vote extension"
  | voteUnverifiable .. => "Skipping unverifiable vote extension"
  | aggregateCapped .. => "Aggregate entry limit reached"
  | nothingToInject .. => "No vote extensions to inject"
  | aggregateInjected .. => "Injected vote-extension aggregate"
  | bindingNotPersisted .. => "Failed to persist validator binding"
  | aggregateAccepted .. => "Vote-extension aggregate accepted"
  | proposalRejected .. => "Rejecting proposal"

/-- The field with the height. -/
def heightField (height : UInt64) : String × String :=
  ("height", toString height.toNat)

/-- The field with the identity. -/
def identityField (identity : Identity) : String × String :=
  ("identity", identity.text)

/-- A field with an address. -/
def addressField (name : String) (address : Address) : String × String :=
  (name, Hex.text address.bytes)

/-- The field with the error that the event is about. -/
def reasonField (reason : Error) : String × String :=
  ("reason", reason.message)

/-- The fields of an event with their values in writing. -/
def fields : Event → List (String × String)
  | nodeReady memoPrefix policy => [("memo_prefix", memoPrefix), ("policy", policy.label)]
  | writingBinding identity => [identityField identity]
  | registrationMalformed height sender reason =>
    [heightField height, addressField "sender" sender, reasonField reason]
  | registrationUnproved height sender => [heightField height, addressField "sender" sender]
  | registered height sender _ => [heightField height, addressField "sender" sender]
  | checkBypassed height simulate => [heightField height, ("simulate", toString simulate)]
  | envelopeMalformed height reason => [heightField height, reasonField reason]
  | memoUnsigned height => [heightField height]
  | envelopeIncomplete height reason => [heightField height, reasonField reason]
  | signerUnresolved height reason => [heightField height, reasonField reason]
  | bindingMissing height identity => [heightField height, identityField identity]
  | keyDiffers height identity => [heightField height, identityField identity]
  | signatureInvalid height identity => [heightField height, identityField identity]
  | signatureVerified height identity => [heightField height, identityField identity]
  | stageRejected stage code => [("stage", stage), ("code", code)]
  | voteExtended height => [heightField height]
  | extensionMissing height validator => [heightField height, addressField "validator" validator]
  | extensionUndecodable height validator reason =>
    [heightField height, addressField "validator" validator, reasonField reason]
  | extensionVerified height validator _ =>
    [heightField height, addressField "validator" validator]
  | extensionUnverified height validator reason =>
    [heightField height, addressField "validator" validator, reasonField reason]
  | voteDuplicate validator => [addressField "validator" validator]
  | voteMalformed validator reason => [addressField "validator" validator, reasonField reason]
  | voteUnverifiable validator reason => [addressField "validator" validator, reasonField reason]
  | aggregateCapped height limit => [heightField height, ("limit", toString limit.toNat)]
  | nothingToInject height => [heightField height]
  | aggregateInjected height entries => [heightField height, ("entries", toString entries)]
  | bindingNotPersisted height reason => [heightField height, reasonField reason]
  | aggregateAccepted height entries learned =>
    [heightField height, ("entries", toString entries), ("learned", toString learned)]
  | proposalRejected height reason =>
    [heightField height, ("code", reason.code), reasonField reason]

end Event

end SecondFactor
