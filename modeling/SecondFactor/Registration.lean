import SecondFactor.Bindings
import SecondFactor.Chain.Transaction
import SecondFactor.Config
import SecondFactor.Envelope

/-!
# Registration

An account binds a secondary key to its address by a message that carries an envelope made with
the key. Whether the envelope proves that the sender holds the key (`prove`) does not depend on
the store; only then the binding is made, as far as the policy for accounts that have a key
already admits it. A registration that fails writes nothing.
-/

namespace SecondFactor

/-- The request to bind a key to the account of its sender. -/
structure RegisterMessage where
  /-- Whose account. -/
  sender : Address
  /-- An encoded envelope, with the memo prefix before it or without. -/
  envelope : Bytes
deriving DecidableEq

instance : Wire RegisterMessage where
  toJson message := .ofFields
    [("sender", Wire.toJson message.sender), ("envelope", .ofHex message.envelope)]
  ofJson? j := do
    let [some sender, some envelope] ←
      Json.fields? ["sender", "envelope"] { ignoresUnknown := true } j | none
    return ⟨← Wire.ofJson? sender, ← envelope.hex?⟩

/-- The reply to a registration that succeeded, which tells nothing else. -/
structure RegisterReply where
deriving DecidableEq

instance : Wire RegisterReply where
  toJson _ := .ofFields []
  ofJson? j := (Json.fields? [] { ignoresUnknown := true } j).map fun _ => {}

namespace Registration

open Attempt (orRecord)

/-- The document in a message: what stands behind the memo prefix, or everything. -/
def body (config : Config) (message : RegisterMessage) : Bytes :=
  (Envelope.bodyOf? config.memoPrefix message.envelope).getD message.envelope

/-- The envelope of a message, if it is complete and proves that the sender holds its key. -/
def prove (config : Config) (ctx : BlockContext) (message : RegisterMessage) :
    Attempt Envelope := do
  let envelope ← orRecord (.registrationMalformed ctx.height message.sender)
    (Envelope.decode (body config message))
  -- A message with an empty field is refused without an event.
  MonadExcept.ofExcept envelope.validate
  if envelope.provesPossession then
    return envelope
  else do
    record (.registrationUnproved ctx.height message.sender)
    throw .verificationFailed

/-- Binds the key of a message to its sender. -/
def execute (config : Config) (ctx : BlockContext) (message : RegisterMessage) :
    Update RegisterReply := do
  let envelope ← prove config ctx message
  let outcome ←
    Bindings.bind ⟨.account message.sender, envelope.publicKey⟩ config.rebindPolicy
  record (.registered ctx.height message.sender outcome)
  return {}

end Registration

end SecondFactor
